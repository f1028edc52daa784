import ThesisTrace.Alpha.EvaluatorAgreement
import ThesisTrace.Alpha.Exposure

/-!
# Expression typing is sound

An accepted exposure never reads a stock. In the evaluation of an accepted alpha every node has a
value of the shape that its type announces, so a temporal builtin always reads a tuple.
-/

namespace ThesisTrace.Alpha
open Numeric Transaction Dataflow

variable {F : Type} [Numeric F]

/-- A completed evaluation at one instrument. -/
structure SoundSlots (length : ℕ) (expression : Expr F) (slots : List (Option (RowCell F))) :
    Prop where
  shaped : Filled (RowShaped length) slots expression.subexpressions
  /-- A temporal builtin reads a tuple over the sessions and an integer window. -/
  temporal : ∀ node ∈ expression.append [], ∀ function, node.op = .builtin (.temporal function) →
    ∃ (items : Series (Item F)) (window : ℤ),
      (readSlots slots node.inputs).map (Option.map RowCell.value)
        = [some (.series items), some (.scalar (some (.int window)))]
      ∧ items.length = length

lemma soundSlots {length : ℕ} {expression : Expr F} {type : ValueType}
    (typed : expression.Typed type) {slots : List (Option (RowCell F))}
    (h : Filled (RowShaped length) slots expression.subexpressions) :
    SoundSlots length expression slots := by
  refine ⟨h, ?_⟩
  intro node hnode function hop
  have hplan := plan_standsFor expression
  obtain ⟨index, hindex⟩ := List.mem_iff_getElem?.mp hnode
  have hlt : index < expression.subexpressions.length :=
    hplan.length ▸ (List.getElem?_eq_some_iff.mp hindex).1
  obtain ⟨hsubOp, hinputs⟩ := hplan.node index node _ hindex (List.getElem?_eq_getElem hlt)
  have hsubTyped : ∀ sub ∈ expression.subexpressions, ∃ type, sub.Typed type :=
    subexpressions_induct (fun other ⟨_, htyped⟩ => htyped.arguments) ⟨type, typed⟩
  obtain ⟨subType, hsub⟩ := hsubTyped _ (List.getElem_mem hlt)
  generalize expression.subexpressions[index] = sub at hsubOp hinputs hsub
  rw [hop] at hsubOp
  cases hsub with
  | @temporal other series _ window htyped temporalSeries _ _ =>
    have hseries : subType.isSeries = true := by rcases temporalSeries with rfl | rfl <;> rfl
    obtain ⟨values, rfl, hvalues⟩ := h
    obtain ⟨read, hread, hholds⟩ := Filled.arguments hvalues
      (hinputs.imp fun _ _ hinput => hinput.2)
    obtain _ | ⟨hseriesCell, _ | ⟨hwindowCell, _ | _⟩⟩ := hholds
    obtain ⟨items, hitems, hlength⟩ := (hseriesCell.value _ htyped).items hseries
    refine ⟨items, window, ?_, hlength⟩
    rw [hread]
    simp [hitems, hwindowCell.literal _ rfl, Literal.item]
  | _ => cases hsubOp

/-! ### Exposures -/

/-- What holds of the plan of an accepted exposure. -/
structure ExposureSound (panel : Panel F) (parsed : ParsedAlpha F) : Prop where
  account : ∀ node ∈ (buildSeriesExecutionPlan parsed).nodes, node.op.isStock = false
  result : Yields (· = .evaluation .overflow) (fun items => items.length = panel.sessions.length)
    (evaluateCommonExecutionSeries (buildSeriesExecutionPlan parsed) panel.accountInputs)
  exact : parsed.expression.IntegersExact → ∃ items,
    evaluateCommonExecutionSeries (buildSeriesExecutionPlan parsed) panel.accountInputs = .ok items

/-! ### Alphas -/

/-- The slots that the row evaluator fills for one instrument. -/
def rowSlots (panel : Panel F) (parsed : ParsedAlpha F) (common : List (CommonKey × List F))
    (instrument : InstrumentId) : Except EvaluationError (List (Option (RowCell F))) :=
  run (fun op arguments => do
      applyRow (panel.matrixInputs.row common instrument) op (← keptValues arguments))
    (buildSeriesExecutionPlan parsed).nodes

/-- The slots that the matrix evaluator fills for all instruments. -/
def matrixSlots (panel : Panel F) (parsed : ParsedAlpha F) (common : List (CommonKey × List F)) :
    Except EvaluationError (List (Option (MatrixCell F))) :=
  run (fun op arguments => do applyMatrix panel.matrixInputs common op (← keptValues arguments))
    (buildSeriesExecutionPlan parsed).nodes

/-- The slots of one instrument. -/
def SlotsAt (instrument : InstrumentId) (slots : List (Option (MatrixCell F)))
    (rows : List (Option (RowCell F))) : Prop :=
  List.Forall₂ (fun slot row => ∃ cell value, slot = some cell ∧ row = some value
    ∧ cell.at instrument = .ok value) slots rows

/-- What holds of the evaluation of an accepted alpha. -/
structure AlphaSound [DecidableEq F] (panel : Panel F) (parsed : ParsedAlpha F) : Prop where
  slots : ∃ common, panel.matrixInputs.commonValues (buildSeriesExecutionPlan parsed).nodes
      = .ok common
    ∧ ((∀ op ∈ parsed.expression.ops, op.isRank = false) → ∀ instrument,
      Yields Overflows (SoundSlots panel.sessions.length parsed.expression)
        (rowSlots panel parsed common instrument))
    ∧ Yields Overflows (fun slots => ∀ instrument ∈ panel.instruments,
        ∃ rows, SlotsAt instrument slots rows
          ∧ SoundSlots panel.sessions.length parsed.expression rows)
      (matrixSlots panel parsed common)
  result : Yields Overflows (AlignedSeries panel.matrixInputs)
    (evaluateSeriesExecutionMatrix (buildSeriesExecutionPlan parsed) panel.matrixInputs)
  exact : parsed.expression.IntegersExact → ∃ rows,
    evaluateSeriesExecutionMatrix (buildSeriesExecutionPlan parsed) panel.matrixInputs = .ok rows
  columnar : ∃ grid, evaluateColumnarExecutionMatrix (buildSeriesExecutionPlan parsed)
      panel.columnarInputs = .ok grid ∧ panel.columnarInputs.Shaped grid

lemma matrixInputs_serves (panel : Panel F) {common : List (CommonKey × List F)}
    {expression : Expr F} (hlookup : ∀ identifier industryCode,
      .common identifier industryCode ∈ expression.ops →
      common.lookup (identifier, industryCode) = some (panel.market (identifier, industryCode))) :
    panel.matrixInputs.Serves common expression := by
  refine ⟨fun instrument => ⟨?_, ?_, ?_⟩, panel.universeCovered⟩
  · exact fun fieldId _ => List.length_map ..
  · exact fun identifier industryCode hop =>
      ⟨_, hlookup identifier industryCode hop, market_length panel (identifier, industryCode)⟩
  · intro window hwindow
    obtain ⟨field, _, rfl⟩ := List.mem_map.mp hwindow
    exact List.length_map ..

/-- Filled slots of all instruments give those of each. -/
lemma slotsAt_of_filled {inputs : MatrixInputs F} {slots : List (Option (MatrixCell F))}
    {expressions : List (Expr F)} (h : Filled (MatrixShaped inputs) slots expressions)
    {instrument : InstrumentId} (hinstrument : instrument ∈ inputs.instruments) :
    ∃ rows, SlotsAt instrument slots rows
      ∧ Filled (RowShaped inputs.sessions.length) rows expressions := by
  obtain ⟨cells, rfl, hcells⟩ := h
  induction hcells with
  | nil => exact ⟨[], .nil, [], rfl, .nil⟩
  | @cons cell _ _ _ hcell _ ih =>
    obtain ⟨row, hrow, hshaped⟩ := hcell instrument hinstrument
    obtain ⟨_, hrows, values, rfl, hvalues⟩ := ih
    refine ⟨some row :: values.map some, ?_, row :: values, rfl, .cons hshaped hvalues⟩
    exact .cons ⟨cell, row, rfl, rfl, hrow⟩ hrows

lemma alphaSound [DecidableEq F] {panel : Panel F} {parsed : ParsedAlpha F} {type : ValueType}
    (typed : parsed.expression.Typed type)
    (hmarket : parsed.expression.usesCommon = true → panel.MarketCovered) :
    AlphaSound panel parsed := by
  obtain ⟨common, hcommon, hlookup⟩ := matrixInputs_commonValues panel hmarket
  have hserves := matrixInputs_serves panel hlookup
  refine ⟨⟨common, hcommon, ?_, ?_⟩, ?_, ?_, ?_⟩
  · intro hrank instrument
    exact (run_applyRow_shaped typed (hserves.row instrument) hrank).mono fun slots hslots =>
      soundSlots typed hslots
  · refine (run_applyMatrix_shaped typed hserves).mono fun slots hslots => ?_
    intro instrument hinstrument
    obtain ⟨rows, hrows, hfilled⟩ := slotsAt_of_filled hslots hinstrument
    exact ⟨rows, hrows, soundSlots typed hfilled⟩
  · exact evaluateSeriesExecutionMatrix_aligned typed hserves hcommon
      fun _ _ _ _ => List.length_map ..
  · intro hexact
    obtain ⟨rows, hrows, _⟩ := evaluateSeriesExecutionMatrix_stands panel typed hexact hmarket
    exact ⟨rows, hrows⟩
  · have hgrid := (evaluateColumnarExecutionMatrix_eq panel typed hmarket).1
    exact ⟨_, hgrid, grid_shaped panel (meaning_aligned panel parsed.expression).cells⟩

/-- Expression typing is sound. -/
theorem expression_typing_sound [DecidableEq F] (panel : Panel F) :
    (∀ (expression : FormulaNode F) (parsed : ParsedAlpha F),
        validateNormalizedExposure expression = .ok parsed →
        (parsed.expression.usesCommon = true → panel.MarketCovered) → ExposureSound panel parsed)
      ∧ ∀ (fieldBindings : FieldBindings) (expression : FormulaNode F) (parsed : ParsedAlpha F),
        validateNormalizedAlpha fieldBindings expression = .ok parsed →
        (parsed.expression.usesCommon = true → panel.MarketCovered) →
        AlphaSound panel parsed := by
  constructor
  · intro expression parsed hparsed hmarket
    obtain ⟨type, typed, haccount⟩ := validateNormalizedExposure_sound hparsed
    exact ⟨nodes_account haccount,
      evaluateCommonExecutionSeries_aligned panel typed haccount hmarket,
      fun hexact => evaluateCommonExecutionSeries_ok panel typed hexact haccount hmarket⟩
  · intro fieldBindings expression parsed hparsed hmarket
    exact alphaSound (validateNormalizedAlpha_sound hparsed).1 hmarket

/-! ### One session -/

/-- `if_else(universe_advancing_fraction >= 0, 1, 0)`. -/
def advancingExposure : FormulaNode Binary53 :=
  .call "if_else" [.binary "ge" (.common "universe_advancing_fraction" none)
    (.number (some (.int 0))), .number (some (.int 1)), .number (some (.int 0))]

/-- `close + (1 + 2)`. -/
def literalSum : FormulaNode Binary53 :=
  .binary "add" (.field closeFieldId)
    (.binary "add" (.number (some (.int 1))) (.number (some (.int 2))))

lemma closePanel_marketCovered (close : ℚ) : (closePanel close).MarketCovered := by
  intro session _
  exact ⟨List.nodup_singleton _, fun member hmember => hmember⟩

theorem expression_typing_sound_small :
    (∃ parsed, validateNormalizedExposure advancingExposure = .ok parsed
        ∧ ExposureSound (closePanel 1) parsed)
      ∧ ∃ parsed, validateNormalizedAlpha closeBindings literalSum = .ok parsed
        ∧ AlphaSound (closePanel 1) parsed := by
  obtain ⟨hexposure, halpha⟩ := expression_typing_sound (closePanel 1)
  constructor
  · have hsome : (validateNormalizedExposure advancingExposure).toOption.isSome = true := rfl
    cases hparsed : validateNormalizedExposure advancingExposure with
    | error issue =>
      rw [hparsed] at hsome
      cases hsome
    | ok parsed =>
      exact ⟨parsed, rfl, hexposure _ parsed hparsed fun _ => closePanel_marketCovered 1⟩
  · have hsome : (validateNormalizedAlpha closeBindings literalSum).toOption.isSome = true := rfl
    cases hparsed : validateNormalizedAlpha closeBindings literalSum with
    | error issue =>
      rw [hparsed] at hsome
      cases hsome
    | ok parsed =>
      exact ⟨parsed, rfl, halpha _ _ parsed hparsed fun _ => closePanel_marketCovered 1⟩

/-- The sum of two literals is a number, and its node holds a tuple. -/
theorem literal_sum_is_tuple :
    ∃ parsed slots cell, validateNormalizedAlpha closeBindings literalSum = .ok parsed
      ∧ rowSlots (closePanel 1) parsed [] "000001.SZ" = .ok slots
      ∧ parsed.expression.subexpressions[3]?
        = some (.binary .add (.number (.int 1)) (.number (.int 2)))
      ∧ (Expr.binary .add (.number (.int 1)) (.number (.int 2)) : Expr Binary53).Typed .number
      ∧ slotValue slots 3 = some cell ∧ cell.value.length? = some 1 := by
  have hshape : (do
        let parsed ← (validateNormalizedAlpha closeBindings literalSum).toOption
        let slots ← (rowSlots (closePanel 1) parsed [] "000001.SZ").toOption
        return (parsed.expression.subexpressions[3]?,
          (slotValue slots 3).bind fun cell => cell.value.length?))
      = some (some (.binary .add (.number (.int 1)) (.number (.int 2))), some 1) := by
    rfl
  cases hparsed : validateNormalizedAlpha closeBindings literalSum with
  | error issue =>
    rw [hparsed] at hshape
    cases hshape
  | ok parsed =>
    rw [hparsed] at hshape
    cases hslots : rowSlots (closePanel 1) parsed [] "000001.SZ" with
    | error e =>
      simp [hslots, Except.toOption] at hshape
    | ok slots =>
      cases hcell : slotValue slots 3 with
      | none => simp [hslots, hcell, Except.toOption] at hshape
      | some cell =>
        simp only [Except.toOption, hslots, hcell, Option.bind_eq_bind, Option.bind_some,
          Option.pure_def, Option.some.injEq, Prod.mk.injEq] at hshape
        refine ⟨parsed, slots, cell, rfl, hslots, hshape.1, ?_, hcell, hshape.2⟩
        exact .binary (.number rfl) (.number rfl) rfl

end ThesisTrace.Alpha
