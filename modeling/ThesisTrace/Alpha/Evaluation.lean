import Mathlib.Data.List.SplitBy
import ThesisTrace.Alpha.Plan

/-!
# Evaluation of series execution plans

The row evaluators keep Python numbers and `none` for a missing cell. The columnar evaluator keeps
binary64 matrices, where a cell that is not finite is missing.
-/

namespace ThesisTrace.Alpha
open Numeric Transaction Dataflow

variable {F : Type} [Numeric F]

/-! ### Row operators -/

/-- `_broadcast`: a scalar becomes a constant series of floats. -/
def PlanValue.broadcast (length : ℕ) :
    PlanValue F → Except EvaluationError (Series (Item F))
  | .series items => do
    require (items.length = length) .misaligned
    return items
  | .scalar value => return List.replicate length (value.map fun item => .float item.toFloat)

def applyUnary (operator : UnaryOperator) (item : Item F) : Item F :=
  match operator with
  | .negate => item.neg
  | .not => .float (ofBool (item.value = 0))

def unaryItem (operator : UnaryOperator) :
    Option (Item F) → Except EvaluationError (Option (Item F))
  | none => return none
  | some item => (applyUnary operator item).finiteOrMissing

/-- `_unary`; a scalar becomes a float first. -/
def rowUnary (operator : UnaryOperator) : PlanValue F → Except EvaluationError (PlanValue F)
  | .series items => return .series (← items.mapM (unaryItem operator))
  | .scalar value =>
    return .scalar (← unaryItem operator (value.map fun item => .float item.toFloat))

def applyBinary (operator : BinaryOperator) (left right : Item F) : Item F :=
  match operator with
  | .add => left.add right
  | .subtract => left.sub right
  | .multiply => left.mul right
  | .divide => .float (if right.value = 0 then nan else left.div right)
  | .gt => .float (ofBool (right.value < left.value))
  | .ge => .float (ofBool (right.value ≤ left.value))
  | .lt => .float (ofBool (left.value < right.value))
  | .le => .float (ofBool (left.value ≤ right.value))
  | .eq => .float (ofBool (left.value = right.value))
  | .ne => .float (ofBool (left.value ≠ right.value))
  | .and => .float (ofBool (left.value ≠ 0 ∧ right.value ≠ 0))
  | .or => .float (ofBool (left.value ≠ 0 ∨ right.value ≠ 0))

def binaryItem (operator : BinaryOperator) :
    Option (Item F) → Option (Item F) → Except EvaluationError (Option (Item F))
  | some left, some right => (applyBinary operator left right).finiteOrMissing
  | _, _ => return none

/-- `_binary`. -/
def rowBinary (operator : BinaryOperator) (left right : PlanValue F) (length : ℕ) :
    Except EvaluationError (Series (Item F)) := do
  let left ← left.broadcast length
  let right ← right.broadcast length
  (left.zip right).mapM fun pair => binaryItem operator pair.1 pair.2

/-! ### One instrument -/

/-- The value of a node and its TTM window. -/
structure RowCell (F : Type) where
  value : PlanValue F
  window : Option (List ℤ)

structure RowInputs (F : Type) [Numeric F] where
  length : ℕ
  values : String → Series F
  windows : List (String × List ℤ)
  common : List (CommonKey × List F)
  rollingSum : RollingSum F

def Series.finiteOrMissing (series : Series F) : Series (Item F) :=
  series.map fun value => (value.bind finite).map .float

/-- A condition as a float array; missing is `nan`. -/
def conditionRow (series : Series (Item F)) : List F :=
  series.map fun value => (value.map Item.toFloat).getD nan

def keepMatching (matching : List Bool) (series : Series (Item F)) : Series (Item F) :=
  List.zipWith (fun value valid => if valid then value else none) series matching

def rowValue (inputs : RowInputs F) (op : PlanOp F) (arguments : List (RowCell F)) :
    Except EvaluationError (PlanValue F) :=
  match op, arguments with
  | .number value, _ => return .scalar (some value.item)
  | .common identifier industryCode, _ => do
    let values ← found (inputs.common.lookup (identifier, industryCode)) .needsMarketContext
    return .series (Series.finiteOrMissing (values.map some))
  | .field fieldId, _ => return .series (Series.finiteOrMissing (inputs.values fieldId))
  | .unary operator, [operand] => rowUnary operator operand.value
  | .binary operator, [left, right] =>
    return .series (← rowBinary operator left.value right.value inputs.length)
  | .builtin builtin, arguments =>
    builtin.evaluator inputs.rollingSum (arguments.map RowCell.value)
  | _, _ => throw .malformedPlan

/-- The condition of an `if_else` node, broadcast over the sessions. -/
def rowCondition (length : ℕ) (op : PlanOp F) (arguments : List (RowCell F)) :
    Except EvaluationError (Option (List F)) :=
  match op, arguments with
  | .builtin .ifElse, condition :: _ => return some (conditionRow (← condition.value.broadcast length))
  | _, _ => return none

/-- One node of `evaluate_series_execution_plan`. -/
def applyRow (inputs : RowInputs F) (op : PlanOp F) (arguments : List (RowCell F)) :
    Except EvaluationError (RowCell F) := do
  let condition ← rowCondition inputs.length op arguments
  let (window, matching) :=
    ttmNodeWindow rowwise inputs.windows op (arguments.map RowCell.window) condition
  let value ← rowValue inputs op arguments
  match matching with
  | none => return ⟨value, window⟩
  | some matching => return ⟨.series (keepMatching matching (← value.broadcast inputs.length)), window⟩

/-- A row evaluator never releases a value. -/
def keptValues {V : Type} (slots : List (Option V)) : Except EvaluationError (List V) :=
  slots.mapM fun slot => found slot .malformedPlan

def RowInputs.validate (inputs : RowInputs F) (fieldNames : List String) :
    Except EvaluationError Unit := do
  require (∀ fieldId ∈ fieldNames, (inputs.values fieldId).length = inputs.length) .misaligned
  require (∀ window ∈ inputs.windows, window.2.length = inputs.length) .misaligned

def evaluateSeriesExecutionPlan (plan : SeriesExecutionPlan F) (inputs : RowInputs F) :
    Except EvaluationError (Series (Item F)) := do
  inputs.validate plan.fieldNames
  let slots ← run (fun op arguments => do applyRow inputs op (← keptValues arguments)) plan.nodes
  let root ← found (slotValue slots plan.root) .malformedPlan
  root.value.broadcast inputs.length

/-! ### All instruments -/

/-- A value of all instruments, or one per instrument. -/
inductive MatrixValue (F : Type)
  | plain (value : PlanValue F)
  | byInstrument (values : List (InstrumentId × PlanValue F))

/-- `_matrix_value`. -/
def MatrixValue.at (instrument : InstrumentId) :
    MatrixValue F → Except EvaluationError (PlanValue F)
  | .plain value => return value
  | .byInstrument values => found (values.lookup instrument) .unknownMember

structure MatrixCell (F : Type) where
  value : MatrixValue F
  windows : List (InstrumentId × Option (List ℤ))

def MatrixCell.at (cell : MatrixCell F) (instrument : InstrumentId) :
    Except EvaluationError (RowCell F) := do
  return ⟨← cell.value.at instrument,
    ← found (cell.windows.lookup instrument) .unknownMember⟩

structure MatrixInputs (F : Type) [Numeric F] where
  sessions : List Session
  instruments : List InstrumentId
  values : InstrumentId → String → Series F
  windows : InstrumentId → List (String × List ℤ)
  universeMembers : Session → List InstrumentId
  historicalUniverseMembers : Session → List InstrumentId
  industries : Session → InstrumentId → Option String
  rollingSum : RollingSum F

def MatrixInputs.row (inputs : MatrixInputs F) (common : List (CommonKey × List F))
    (instrument : InstrumentId) : RowInputs F :=
  { length := inputs.sessions.length
    values := inputs.values instrument
    windows := inputs.windows instrument
    common := common
    rollingSum := inputs.rollingSum }

/-- The average rank between zero and one of the values at `position` to `stop` of `size + 1`. -/
def averageRank (position stop size : ℕ) : F :=
  div (div (ofInt (position + stop - 1 : ℕ)) (ofInt 2)) (ofInt size)

/-- Ranks of the groups of equal values, from a position on. -/
def groupRanks (size : ℕ) : ℕ → List (List (InstrumentId × F)) → List (InstrumentId × F)
  | _, [] => []
  | position, group :: groups =>
    let stop := position + group.length
    group.map (fun row => (row.1, averageRank position stop size)) ++ groupRanks size stop groups

def rowBefore (left right : InstrumentId × F) : Bool :=
  toRat left.2 < toRat right.2 ∨ (toRat left.2 = toRat right.2 ∧ left.1 ≤ right.1)

def sameValue (left right : InstrumentId × F) : Bool := toRat left.2 = toRat right.2

/-- `_cross_section_ranks`. -/
def crossSectionRanks (values : List (InstrumentId × F)) : List (InstrumentId × F) :=
  match values with
  | [(instrument, _)] => [(instrument, ofRat (1 / 2))]
  | values => groupRanks (values.length - 1) 0 ((values.mergeSort rowBefore).splitBy sameValue)

/-- The finite values of the members of a session. -/
def finiteMembers (child : MatrixValue F) (instruments members : List InstrumentId)
    (index length : ℕ) : Except EvaluationError (List (InstrumentId × F)) := do
  let rows ← members.mapM fun member => do
    require (member ∈ instruments) .unknownMember
    let value := (← (← child.at member).broadcast length)[index]?.join
    return (member, value.bind fun item => finite item.toFloat)
  return rows.filterMap fun row => row.2.map (row.1, ·)

/-- The rank of every member on every session. -/
def rankMatrix (inputs : MatrixInputs F) (child : MatrixValue F) :
    Except EvaluationError (MatrixValue F) := do
  let ranks ← inputs.sessions.zipIdx.mapM fun (session, index) => do
    return crossSectionRanks (← finiteMembers child inputs.instruments
      (inputs.universeMembers session) index inputs.sessions.length)
  return .byInstrument (inputs.instruments.map fun instrument =>
    (instrument, .series (ranks.map fun ranks => (ranks.lookup instrument).map .float)))

/-- One node of `evaluate_series_execution_matrix`: outside `rank`, every instrument goes through
the row operators. -/
def applyMatrix (inputs : MatrixInputs F) (common : List (CommonKey × List F)) (op : PlanOp F)
    (arguments : List (MatrixCell F)) : Except EvaluationError (MatrixCell F) := do
  let noWindows := inputs.instruments.map fun instrument => (instrument, none)
  match op, arguments with
  | .number value, _ => return ⟨.plain (.scalar (some value.item)), noWindows⟩
  | .common identifier industryCode, _ =>
    let values ← found (common.lookup (identifier, industryCode)) .needsMarketContext
    return ⟨.plain (.series (Series.finiteOrMissing (values.map some))), noWindows⟩
  | .builtin .rank, [child] => return ⟨← rankMatrix inputs child.value, noWindows⟩
  | op, arguments =>
    let cells ← inputs.instruments.mapM fun instrument => do
      let arguments ← arguments.mapM fun argument => argument.at instrument
      return (instrument, ← applyRow (inputs.row common instrument) op arguments)
    return ⟨.byInstrument (cells.map fun cell => (cell.1, cell.2.value)),
      cells.map fun cell => (cell.1, cell.2.window)⟩

/-- The market series of the common inputs, from the adjusted Closes. -/
def MatrixInputs.commonValues (inputs : MatrixInputs F) (nodes : List (SeriesPlanNode F)) :
    Except EvaluationError (List (CommonKey × List F)) :=
  Alpha.commonValues nodes (computeCommonMarketSeries inputs.sessions inputs.instruments
    (inputs.instruments.map fun instrument =>
      (inputs.values instrument closeFieldId).map fun value => value.getD nan)
    inputs.historicalUniverseMembers inputs.industries)

def evaluateSeriesExecutionMatrix (plan : SeriesExecutionPlan F) (inputs : MatrixInputs F) :
    Except EvaluationError (List (InstrumentId × Series (Item F))) := do
  let common ← inputs.commonValues plan.nodes
  require (∀ instrument ∈ inputs.instruments, ∀ window ∈ inputs.windows instrument,
    window.2.length = inputs.sessions.length) .misaligned
  if plan.nodes.any (fun node => node.op.isRank) then
    let slots ← run (fun op arguments => do
      applyMatrix inputs common op (← keptValues arguments)) plan.nodes
    let root ← found (slotValue slots plan.root) .malformedPlan
    inputs.instruments.mapM fun instrument => do
      return (instrument, ← (← root.value.at instrument).broadcast inputs.sessions.length)
  else
    inputs.instruments.mapM fun instrument => do
      return (instrument, ← evaluateSeriesExecutionPlan plan (inputs.row common instrument))

/-! ### Columns -/

inductive ColumnarValue (F : Type)
  | scalar (value : Item F)
  | grid (rows : Grid F)

structure ColumnarCell (F : Type) where
  value : ColumnarValue F
  window : Option (Grid ℤ)

structure ColumnarInputs (F : Type) [Numeric F] where
  sessions : List Session
  instruments : List InstrumentId
  fields : String → Grid F
  windows : List (String × Grid ℤ)
  universeMembers : Session → List InstrumentId
  historicalUniverseMembers : Session → List InstrumentId
  industries : Session → InstrumentId → Option String
  rollingSum : RollingSum F

/-- The shape of the matrices. -/
def ColumnarInputs.Shaped {α : Type} (inputs : ColumnarInputs F) (grid : Grid α) : Prop :=
  grid.length = inputs.instruments.length ∧ ∀ row ∈ grid, row.length = inputs.sessions.length

instance {α : Type} (inputs : ColumnarInputs F) (grid : Grid α) : Decidable (inputs.Shaped grid) :=
  inferInstanceAs (Decidable (_ ∧ _))

def ColumnarInputs.fill (inputs : ColumnarInputs F) (value : F) : Grid F :=
  List.replicate inputs.instruments.length (List.replicate inputs.sessions.length value)

/-- `_columnar_array`; a buffer that is gone reads as missing everywhere. -/
def columnarArray (inputs : ColumnarInputs F) :
    Option (ColumnarCell F) → Except EvaluationError (Grid F)
  | none => return inputs.fill nan
  | some ⟨.scalar value, _⟩ => return inputs.fill value.toFloat
  | some ⟨.grid rows, _⟩ => do
    require (inputs.Shaped rows) .misaligned
    return rows

def columnarUnary (operator : UnaryOperator) (operand : F) : F :=
  if isFinite operand then
    match operator with
    | .not => ofBool (toRat operand = 0)
    | .negate => neg operand
  else nan

def columnarOperation (operator : BinaryOperator) (left right : F) : F :=
  match operator with
  | .add => add left right
  | .subtract => sub left right
  | .multiply => mul left right
  | .divide => div left right
  | .gt => ofBool (toRat right < toRat left)
  | .ge => ofBool (toRat right ≤ toRat left)
  | .lt => ofBool (toRat left < toRat right)
  | .le => ofBool (toRat left ≤ toRat right)
  | .eq => ofBool (toRat left = toRat right)
  | .ne => ofBool (toRat left ≠ toRat right)
  | .and => ofBool (toRat left ≠ 0 ∧ toRat right ≠ 0)
  | .or => ofBool (toRat left ≠ 0 ∨ toRat right ≠ 0)

/-- The operation where both operands are valid, else `nan`. -/
def columnarBinary (operator : BinaryOperator) (left right : F) : F :=
  if isFinite left ∧ isFinite right ∧ (operator = .divide → toRat right ≠ 0) then
    columnarOperation operator left right
  else nan

def columnarIfElse (condition : F) (branches : F × F) : F :=
  if isFinite condition then
    if toRat condition ≠ 0 then branches.1 else branches.2
  else nan

def columnarPctChangeCell (current prior : F) : F :=
  if isFinite current ∧ isFinite prior ∧ toRat prior ≠ 0 then
    sub (div current prior) (ofInt 1)
  else nan

/-- `_columnar_pct_change` of one row: the first cells have no prior. -/
def columnarPctChange (window : ℕ) (row : List F) : List F :=
  if row.length ≤ window then List.replicate row.length nan
  else List.replicate window nan
    ++ List.zipWith columnarPctChangeCell (row.drop window) (row.take (row.length - window))

/-- Sorted distinct values, how often each occurs, and how many values come before each. -/
def uniqueValues (values : List F) : List ℚ := ((values.map toRat).mergeSort (· ≤ ·)).dedup

def uniqueCounts (values : List F) : List ℕ :=
  (uniqueValues values).map fun value => (values.map toRat).count value

def uniqueStarts (values : List F) : List ℕ :=
  let counts := uniqueCounts values
  (List.range counts.length).map fun index => (counts.take index).sum

/-- The rank of each value, through the rank of its group. -/
def columnarGroupRanks (values : List F) : List F :=
  let ranks := List.zipWith (fun start count => averageRank start (start + count)
    (values.length - 1)) (uniqueStarts values) (uniqueCounts values)
  values.map fun value => ranks.getD ((uniqueValues values).idxOf (toRat value)) nan

/-- The ranks of the finite values at row positions. -/
def columnarRankRows : List (ℕ × F) → List (ℕ × F)
  | [(position, _)] => [(position, ofRat (1 / 2))]
  | rows => (rows.map Prod.fst).zip (columnarGroupRanks (rows.map Prod.snd))

/-- The ranks that one session assigns to row positions. -/
def columnarSessionRanks (inputs : ColumnarInputs F) (values : Grid F) (session : Session)
    (index : ℕ) : List (ℕ × F) :=
  let positions := ((inputs.universeMembers session).filter (· ∈ inputs.instruments)).map
    inputs.instruments.idxOf
  columnarRankRows (positions.filterMap fun position =>
    (finite ((values.getD position []).getD index nan)).map (position, ·))

/-- `_columnar_cross_section_rank`. -/
def columnarCrossSectionRank (inputs : ColumnarInputs F) (values : Grid F) : Grid F :=
  let ranks := inputs.sessions.zipIdx.map fun (session, index) =>
    columnarSessionRanks inputs values session index
  (List.range inputs.instruments.length).map fun position =>
    ranks.map fun ranks => (ranks.lookup position).getD nan

/-- A matrix row as a series of floats; another argument stays as it is. -/
def projectArgument (position : ℕ) : Option (ColumnarCell F) → PlanValue F
  | none => .scalar none
  | some ⟨.scalar value, _⟩ => .scalar (some value)
  | some ⟨.grid rows, _⟩ =>
    .series (Series.finiteOrMissing ((rows.getD position []).map some))

/-- `_evaluate_columnar_builtin_row`. -/
def evaluateColumnarBuiltinRow (inputs : ColumnarInputs F) (builtin : Builtin)
    (arguments : List (Option (ColumnarCell F))) (position : ℕ) :
    Except EvaluationError (List F) := do
  let result ← builtin.evaluator inputs.rollingSum (arguments.map (projectArgument position))
  return conditionRow (← result.broadcast inputs.sessions.length)

def columnarValue (inputs : ColumnarInputs F) (common : List (CommonKey × List F)) (op : PlanOp F)
    (arguments : List (Option (ColumnarCell F))) : Except EvaluationError (ColumnarValue F) :=
  match op, arguments with
  | .number value, _ => return .scalar value.item
  | .common identifier industryCode, _ => do
    let values ← found (common.lookup (identifier, industryCode)) .needsMarketContext
    return .grid (List.replicate inputs.instruments.length values)
  | .field fieldId, _ => return .grid (inputs.fields fieldId)
  | .unary operator, [operand] => do
    return .grid ((← columnarArray inputs operand).map (List.map (columnarUnary operator)))
  | .binary operator, [left, right] => do
    return .grid (List.zipWith (List.zipWith (columnarBinary operator))
      (← columnarArray inputs left) (← columnarArray inputs right))
  | .builtin .rank, [child] => do
    return .grid (columnarCrossSectionRank inputs (← columnarArray inputs child))
  | .builtin .ifElse, [condition, whenTrue, whenFalse] => do
    let branches := List.zipWith List.zip (← columnarArray inputs whenTrue)
      (← columnarArray inputs whenFalse)
    return .grid (List.zipWith (List.zipWith columnarIfElse)
      (← columnarArray inputs condition) branches)
  | .builtin (.temporal .pctChange), [series, some ⟨.scalar (.int window), _⟩] => do
    return .grid ((← columnarArray inputs series).map (columnarPctChange window.toNat))
  | .builtin (.temporal .pctChange), _ => throw .violatedSignature
  | .builtin builtin, arguments => do
    return .grid (← (List.range inputs.instruments.length).mapM
      (evaluateColumnarBuiltinRow inputs builtin arguments))
  | _, _ => throw .malformedPlan

def columnarCondition (inputs : ColumnarInputs F) (op : PlanOp F)
    (arguments : List (Option (ColumnarCell F))) : Except EvaluationError (Option (Grid F)) :=
  match op, arguments with
  | .builtin .ifElse, condition :: _ => return some (← columnarArray inputs condition)
  | _, _ => return none

/-- One node of `evaluate_columnar_execution_matrix`. -/
def applyColumnar (inputs : ColumnarInputs F) (common : List (CommonKey × List F)) (op : PlanOp F)
    (arguments : List (Option (ColumnarCell F))) : Except EvaluationError (ColumnarCell F) := do
  let condition ← columnarCondition inputs op arguments
  let windows := arguments.map fun argument => argument.bind ColumnarCell.window
  let (window, matching) := ttmNodeWindow gridwise inputs.windows op windows condition
  let value ← columnarValue inputs common op arguments
  match matching with
  | none => return ⟨value, window⟩
  | some matching =>
    return ⟨.grid (List.zipWith (List.zipWith fun value valid => if valid then value else nan)
      (← columnarArray inputs (some ⟨value, none⟩)) matching), window⟩

def ColumnarInputs.commonValues (inputs : ColumnarInputs F) (nodes : List (SeriesPlanNode F)) :
    Except EvaluationError (List (CommonKey × List F)) :=
  Alpha.commonValues nodes (computeCommonMarketSeries inputs.sessions inputs.instruments
    (inputs.fields closeFieldId) inputs.historicalUniverseMembers inputs.industries)

def evaluateColumnarExecutionMatrix [DecidableEq F] (plan : SeriesExecutionPlan F)
    (inputs : ColumnarInputs F) : Except EvaluationError (Grid F) := do
  require (∀ fieldId ∈ plan.fieldNames, inputs.Shaped (inputs.fields fieldId)) .misaligned
  require (∀ window ∈ inputs.windows, inputs.Shaped window.2) .misaligned
  let shared := share plan.nodes
  let root := shared.remapped.getD plan.root 0
  let common ← inputs.commonValues shared.nodes
  let state ← runReleasing (applyColumnar inputs common) root shared.nodes
  columnarArray inputs (slotValue state.slots root)

end ThesisTrace.Alpha
