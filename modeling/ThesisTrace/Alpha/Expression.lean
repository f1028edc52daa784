import Mathlib.Data.Finset.Basic
import Mathlib.Data.Finset.Sort
import Mathlib.Order.Lattice.Nat
import ThesisTrace.Library.OrderedMap
import ThesisTrace.Alpha.Builtins

/-!
# Normalized alpha expressions

`FormulaNode` is the intermediate representation that a Run submits: operators and builtins are
still identified by text. The validator resolves them and returns an `Expr` with its lookback,
estimated work, fields and value type.
-/

namespace ThesisTrace.Alpha
open Numeric Transaction

variable {F : Type}

/-! ### Value types -/

inductive ValueType
  | numericSeries
  | number
  | booleanSeries
  | boolean
  | commonNumericSeries
  | commonBooleanSeries
  | window
  deriving DecidableEq, Repr

namespace ValueType

def text : ValueType → String
  | numericSeries => "numeric_series"
  | number => "number"
  | booleanSeries => "boolean_series"
  | boolean => "boolean"
  | commonNumericSeries => "common_numeric_series"
  | commonBooleanSeries => "common_boolean_series"
  | window => "window"

def isNumeric (type : ValueType) : Bool :=
  type ∈ [number, numericSeries, commonNumericSeries]

def isBoolean (type : ValueType) : Bool :=
  type ∈ [boolean, booleanSeries, commonBooleanSeries]

def isSeries (type : ValueType) : Bool :=
  type ∈ [numericSeries, booleanSeries, commonNumericSeries, commonBooleanSeries]

end ValueType

inductive UnaryOperator
  | negate
  | not
  deriving DecidableEq, Repr

namespace UnaryOperator

def identifier : UnaryOperator → String
  | negate => "negate"
  | not => "not"

def find (identifier : String) : Option UnaryOperator :=
  [negate, not].find? (·.identifier = identifier)

end UnaryOperator

inductive BinaryOperator
  | add
  | subtract
  | multiply
  | divide
  | gt
  | ge
  | lt
  | le
  | eq
  | ne
  | and
  | or
  deriving DecidableEq, Repr

namespace BinaryOperator

def identifier : BinaryOperator → String
  | add => "add"
  | subtract => "subtract"
  | multiply => "multiply"
  | divide => "divide"
  | gt => "gt"
  | ge => "ge"
  | lt => "lt"
  | le => "le"
  | eq => "eq"
  | ne => "ne"
  | and => "and"
  | or => "or"

def find (identifier : String) : Option BinaryOperator :=
  [add, subtract, multiply, divide, gt, ge, lt, le, eq, ne, and, or].find?
    (·.identifier = identifier)

def isArithmetic (operator : BinaryOperator) : Bool :=
  operator ∈ [add, subtract, multiply, divide]

def isBoolean (operator : BinaryOperator) : Bool :=
  operator ∈ [and, or]

end BinaryOperator

def unaryResultType (operator : UnaryOperator) (operand : ValueType) : Except String ValueType := do
  require ((if operator = .not then operand.isBoolean else operand.isNumeric) = true)
    s!"{operator.identifier} does not accept {operand.text}"
  return operand

/-- `_result_scope`. -/
def resultScope (types : List ValueType) (boolean : Bool) : ValueType :=
  if types.any (· ∈ [.numericSeries, .booleanSeries]) then
    if boolean then .booleanSeries else .numericSeries
  else if types.any ValueType.isSeries then
    if boolean then .commonBooleanSeries else .commonNumericSeries
  else if boolean then .boolean else .number

def binaryResultType (operator : BinaryOperator) (left right : ValueType) :
    Except String ValueType := do
  let allowed (type : ValueType) := if operator.isBoolean then type.isBoolean else type.isNumeric
  require (allowed left = true ∧ allowed right = true)
    s!"{operator.identifier} cannot combine {left.text} and {right.text}"
  return resultScope [left, right] (!operator.isArithmetic)

def conditionalResultType (condition whenTrue whenFalse : ValueType) :
    Except String ValueType := do
  require (condition.isBoolean = true) "if_else condition must be Boolean"
  if whenTrue.isNumeric && whenFalse.isNumeric then
    return resultScope [condition, whenTrue, whenFalse] false
  else
    require (whenTrue.isBoolean = true ∧ whenFalse.isBoolean = true)
      "if_else branches must have the same value type"
    return resultScope [condition, whenTrue, whenFalse] true

/-! ### Common inputs -/

inductive CommonMetric
  | equalWeightReturn
  | advancingFraction
  deriving DecidableEq, Repr

inductive CommonInput
  | universeReturn
  | universeAdvancingFraction
  | industryReturn
  | industryAdvancingFraction
  deriving DecidableEq, Repr

namespace CommonInput

def identifier : CommonInput → String
  | universeReturn => "universe_return"
  | universeAdvancingFraction => "universe_advancing_fraction"
  | industryReturn => "industry_return"
  | industryAdvancingFraction => "industry_advancing_fraction"

def metric : CommonInput → CommonMetric
  | universeReturn | industryReturn => .equalWeightReturn
  | universeAdvancingFraction | industryAdvancingFraction => .advancingFraction

def needsIndustry : CommonInput → Bool
  | universeReturn | universeAdvancingFraction => false
  | industryReturn | industryAdvancingFraction => true

def find (identifier : String) : Option CommonInput :=
  [universeReturn, universeAdvancingFraction, industryReturn, industryAdvancingFraction].find?
    (·.identifier = identifier)

end CommonInput

def closeFieldId : String := "price.close.adjusted"
def commonInputWork : ℕ := 5

def sw2021L1 : List String :=
  ["801010", "801030", "801040", "801050", "801080", "801110", "801120", "801130", "801140",
    "801150", "801160", "801170", "801180", "801200", "801210", "801230", "801710", "801720",
    "801730", "801740", "801750", "801760", "801770", "801780", "801790", "801880", "801890",
    "801950", "801960", "801970", "801980"]

/-- `int(code)` of ASCII digits. -/
def parseDigits (code : String) : Option ℕ :=
  if code ≠ "" ∧ code.toList.all Char.isDigit then
    some (code.toList.foldl (fun value digit => 10 * value + (digit.toNat - '0'.toNat)) 0)
  else none

def validateCommonReference (identifier : String) (industryCode : Option String) :
    Except String (CommonInput × Option String) := do
  let input ← found (CommonInput.find identifier) "Unknown common input"
  if input.needsIndustry then
    let number ← found (industryCode.bind parseDigits) "Common industry identity is malformed"
    require (toString number ∈ sw2021L1)
      "Industry must be a literal SW2021 L1 code from the catalog"
    require (industryCode = some (toString number)) "Common input identity is not canonical"
  else
    require (industryCode = none) "Common input identity is not canonical"
  return (input, industryCode)

/-! ### Builtin definitions -/

inductive ParameterRule
  | numeric
  | numericSeries
  | window
  | boolean
  | value
  | temporalSeries
  deriving DecidableEq, Repr

namespace ParameterRule

def text : ParameterRule → String
  | numeric => "numeric"
  | numericSeries => "numeric_series"
  | window => "window"
  | boolean => "boolean"
  | value => "value"
  | temporalSeries => "temporal_series"

/-- Whether an argument of a type is allowed. -/
def allows : ParameterRule → ValueType → Bool
  | numeric, type => type.isNumeric
  | numericSeries, type => type = .numericSeries
  | temporalSeries, type => type ∈ [.numericSeries, .commonNumericSeries]
  | boolean, type => type.isBoolean
  | _, _ => true

end ParameterRule

inductive ResultRule
  | sameAsFirst
  | numericSeries
  | conditional
  deriving DecidableEq, Repr

inductive LookbackRule
  | identity
  | historical
  | rolling
  deriving DecidableEq, Repr

structure BuiltinDefinition where
  identifier : String
  parameters : List ParameterRule
  resultRule : ResultRule
  lookbackRule : LookbackRule
  baseOperations : ℕ
  perWindowOperations : ℕ

def LookbackRule.effectiveLookback : LookbackRule → ℕ → Option ℕ → ℕ
  | historical, childLookback, some window => childLookback + window
  | rolling, childLookback, some window => childLookback + window - 1
  | _, childLookback, _ => childLookback

def BuiltinDefinition.estimatedWork (definition : BuiltinDefinition) (childWork : ℕ)
    (window : Option ℕ) : ℕ :=
  childWork + definition.baseOperations + definition.perWindowOperations * window.getD 0

def Temporal.identifier : Temporal → String
  | lag => "lag"
  | delta => "delta"
  | pctChange => "pct_change"
  | tsMean => "ts_mean"
  | tsSum => "ts_sum"
  | tsStd => "ts_std"
  | tsMin => "ts_min"
  | tsMax => "ts_max"

def Temporal.lookbackRule : Temporal → LookbackRule
  | lag | delta | pctChange => .historical
  | tsMean | tsSum | tsStd | tsMin | tsMax => .rolling

/-- The definition of a builtin that an expression may call. -/
def Builtin.definition : Builtin → BuiltinDefinition
  | ifElse => ⟨"if_else", [.boolean, .value, .value], .conditional, .identity, 1, 0⟩
  | pointwise .abs => ⟨"abs", [.numeric], .sameAsFirst, .identity, 1, 0⟩
  | pointwise .log => ⟨"log", [.numeric], .sameAsFirst, .identity, 1, 0⟩
  | pointwise .sign => ⟨"sign", [.numeric], .sameAsFirst, .identity, 1, 0⟩
  | rank => ⟨"rank", [.numericSeries], .numericSeries, .identity, 1, 0⟩
  | temporal function =>
    ⟨function.identifier, [.temporalSeries, .window], .sameAsFirst, function.lookbackRule, 1,
      if function.lookbackRule = .rolling then 1 else 0⟩

def callableBuiltins : List Builtin :=
  [.ifElse, .pointwise .abs, .pointwise .log, .pointwise .sign, .rank, .temporal .lag,
    .temporal .delta, .temporal .pctChange, .temporal .tsMean, .temporal .tsSum,
    .temporal .tsStd, .temporal .tsMin, .temporal .tsMax]

def Builtin.find (identifier : String) : Option Builtin :=
  callableBuiltins.find? (·.definition.identifier = identifier)

/-! ### Expressions -/

/-- A numeric literal; `repr` tells floats of one value apart. -/
inductive Literal (F : Type)
  | int (n : ℤ)
  | float (x : F) (repr : String)
  deriving DecidableEq

def Literal.item : Literal F → Item F
  | int n => .int n
  | float x _ => .float x

/-- The submitted representation; a number node holds nothing where its value is not a number. -/
inductive FormulaNode (F : Type)
  | number (value : Option (Literal F))
  | field (fieldId : String)
  | common (identifier : String) (industryCode : Option String)
  | unary (operator : String) (operand : FormulaNode F)
  | binary (operator : String) (left right : FormulaNode F)
  | call (identifier : String) (arguments : List (FormulaNode F))

inductive Expr (F : Type)
  | number (value : Literal F)
  | field (fieldId : String)
  | common (identifier : CommonInput) (industryCode : Option String)
  | unary (operator : UnaryOperator) (operand : Expr F)
  | binary (operator : BinaryOperator) (left right : Expr F)
  | ifElse (condition whenTrue whenFalse : Expr F)
  | pointwise (function : Pointwise) (value : Expr F)
  | rank (series : Expr F)
  | temporal (function : Temporal) (series : Expr F) (window : ℕ)

/-! ### Validation -/

structure AlphaValidationIssue where
  reasonCode : String
  location : String
  message : String
  deriving DecidableEq, Repr

inductive AlphaValidationError
  | issue (issue : AlphaValidationIssue)
  | overflow
  deriving DecidableEq, Repr

def reject (reasonCode location message : String) : AlphaValidationError :=
  .issue ⟨reasonCode, location, message⟩

def maxExpressionDepth : ℕ := 32
def maxExpressionNodes : ℕ := 256
def maxEstimatedWork : ℕ := 4096
def maxEffectiveLookback : ℕ := 252

/-- Count one node; the literal of a common input is a source node of its own. -/
def countNode (literalCount depth count : ℕ) : Except AlphaValidationError ℕ := do
  require (depth + literalCount ≤ maxExpressionDepth)
    (reject "EXPRESSION_TOO_DEEP" "alpha.expression" "Expression exceeds depth limit")
  require (count + 1 + literalCount ≤ maxExpressionNodes)
    (reject "TOO_MANY_EXPRESSION_NODES" "alpha.expression" "Expression exceeds node limit")
  return count + 1 + literalCount

/- The pending nodes are a stack, so the last child of a node is visited first. -/
mutual

def checkLimits : FormulaNode F → ℕ → ℕ → Except AlphaValidationError ℕ
  | .number _, depth, count => countNode 0 depth count
  | .field _, depth, count => countNode 0 depth count
  | .common _ industryCode, depth, count =>
    countNode (if industryCode.isSome then 1 else 0) depth count
  | .unary _ operand, depth, count => do
    checkLimits operand (depth + 1) (← countNode 0 depth count)
  | .binary _ left right, depth, count => do
    let count ← checkLimits right (depth + 1) (← countNode 0 depth count)
    checkLimits left (depth + 1) count
  | .call _ arguments, depth, count => do
    checkArgumentLimits arguments (depth + 1) (← countNode 0 depth count)

def checkArgumentLimits : List (FormulaNode F) → ℕ → ℕ → Except AlphaValidationError ℕ
  | [], _, count => return count
  | argument :: arguments, depth, count => do
    checkLimits argument depth (← checkArgumentLimits arguments depth count)

end

structure CompiledNode (F : Type) where
  expression : Expr F
  effectiveLookback : ℕ
  estimatedWork : ℕ
  fields : Finset String
  fieldIds : Finset String
  resultType : ValueType

inductive CompiledArgument (F : Type)
  | window (size : ℕ)
  | child (node : CompiledNode F)

namespace CompiledArgument

def window? : CompiledArgument F → Option ℕ
  | window size => some size
  | child _ => none

def child? : CompiledArgument F → Option (CompiledNode F)
  | window _ => none
  | child node => some node

def work : CompiledArgument F → ℕ
  | window _ => 1
  | child node => node.estimatedWork

def resultType : CompiledArgument F → ValueType
  | window _ => .window
  | child node => node.resultType

end CompiledArgument

/-- The call of a builtin on arguments that follow its parameters. -/
def Builtin.call : Builtin → List (CompiledArgument F) → Option (Expr F)
  | ifElse, [.child condition, .child whenTrue, .child whenFalse] =>
    some (.ifElse condition.expression whenTrue.expression whenFalse.expression)
  | pointwise function, [.child value] => some (.pointwise function value.expression)
  | rank, [.child series] => some (.rank series.expression)
  | temporal function, [.child series, .window size] =>
    some (.temporal function series.expression size)
  | _, _ => none

def callResultType (rule : ResultRule) (types : List ValueType) : Except String ValueType :=
  match rule, types with
  | .conditional, [condition, whenTrue, whenFalse] =>
    conditionalResultType condition whenTrue whenFalse
  | .numericSeries, _ => return .numericSeries
  | _, type :: _ => return type
  | _, [] => throw "list index out of range"

/-- The compiled call of a builtin. -/
def compileCall (builtin : Builtin) (arguments : List (CompiledArgument F)) (location : String) :
    Except AlphaValidationError (CompiledNode F) := do
  let definition := builtin.definition
  let children := arguments.filterMap CompiledArgument.child?
  let window := (arguments.filterMap CompiledArgument.window?).getLast?
  let resultType ← (callResultType definition.resultRule
    (arguments.map CompiledArgument.resultType)).mapError (reject "TYPE_MISMATCH" location)
  let expression ← found (builtin.call arguments)
    (reject "INVALID_OPERAND" location "Alpha builtin argument is invalid")
  let lookback := (children.map CompiledNode.effectiveLookback).foldr max 0
  return {
    expression := expression
    effectiveLookback := definition.lookbackRule.effectiveLookback lookback window
    estimatedWork := definition.estimatedWork (arguments.map CompiledArgument.work).sum window
    fields := children.foldr (fun child fields => child.fields ∪ fields) ∅
    fieldIds := children.foldr (fun child fieldIds => child.fieldIds ∪ fieldIds) ∅
    resultType := resultType }

/-- A window is an integer literal from 1 to 252. -/
def validateWindow (argument : FormulaNode F) (location : String) :
    Except AlphaValidationError ℕ := do
  let invalid := reject "INVALID_WINDOW" location "Alpha window must be an integer from 1 to 252"
  match argument with
  | .number (some (.int n)) => do
    require (1 ≤ n ∧ n ≤ 252) invalid
    return n.toNat
  | _ => throw invalid

abbrev FieldBindings := OrderedMap String String

section Validation

variable [Numeric F] (fieldBindings : FieldBindings)

def validateLiteral (value : Option (Literal F)) (location : String) :
    Except AlphaValidationError (Literal F) := do
  let invalid := reject "INVALID_LITERAL" location "Alpha number must be finite"
  match value with
  | none => throw invalid
  | some (.int n) => do
    require (isFinite (ofInt n : F) = true) .overflow
    return .int n
  | some (.float x repr) => do
    require (isFinite x = true) invalid
    return .float x repr

mutual

def validateCompiledNode : FormulaNode F → String → Except AlphaValidationError (CompiledNode F)
  | .common identifier industryCode, location => do
    let (input, code) ← (validateCommonReference identifier industryCode).mapError
      (reject "INVALID_COMMON_INPUT" location)
    let close ← found (fieldBindings.lookup closeFieldId)
      (reject "UNKNOWN_FIELD" location "Common input requires adjusted Close")
    return ⟨.common input code, 1, commonInputWork, {close}, {closeFieldId},
      .commonNumericSeries⟩
  | .field fieldId, location => do
    let name ← found (fieldBindings.lookup fieldId)
      (reject "UNKNOWN_FIELD" location s!"unknown Alpha field: {fieldId}")
    return ⟨.field fieldId, 0, 1, {name}, {fieldId}, .numericSeries⟩
  | .number value, location => do
    return ⟨.number (← validateLiteral value location), 0, 1, ∅, ∅, .number⟩
  | .unary operator operand, location => do
    let operator ← found (UnaryOperator.find operator)
      (reject "INVALID_OPERATOR" location "Alpha unary operator is invalid")
    let child ← validateCompiledNode operand s!"{location}.operand"
    let resultType ← (unaryResultType operator child.resultType).mapError
      (reject "TYPE_MISMATCH" location)
    return ⟨.unary operator child.expression, child.effectiveLookback, child.estimatedWork + 1,
      child.fields, child.fieldIds, resultType⟩
  | .binary operator left right, location => do
    let operator ← found (BinaryOperator.find operator)
      (reject "INVALID_OPERATOR" location "Alpha binary operator is invalid")
    let left ← validateCompiledNode left s!"{location}.left"
    let right ← validateCompiledNode right s!"{location}.right"
    let resultType ← (binaryResultType operator left.resultType right.resultType).mapError
      (reject "TYPE_MISMATCH" location)
    return ⟨.binary operator left.expression right.expression,
      max left.effectiveLookback right.effectiveLookback,
      left.estimatedWork + right.estimatedWork + 1, left.fields ∪ right.fields,
      left.fieldIds ∪ right.fieldIds, resultType⟩
  | .call identifier arguments, location => do
    require (CommonInput.find identifier = none)
      (reject "INVALID_COMMON_INPUT" location "Common inputs require canonical references")
    let builtin ← found (Builtin.find identifier)
      (reject "INVALID_OPERATOR" location s!"unknown Alpha builtin: {identifier}")
    require (arguments.length = builtin.definition.parameters.length)
      (reject "INVALID_ARITY" location s!"Alpha builtin {identifier} has invalid arity")
    compileCall builtin
      (← validateArguments arguments identifier builtin.definition.parameters 0 location) location

def validateArguments : List (FormulaNode F) → String → List ParameterRule → ℕ → String →
    Except AlphaValidationError (List (CompiledArgument F))
  | argument :: arguments, identifier, rule :: rules, index, location => do
    let compiled ← (if rule = .window then
        CompiledArgument.window <$> validateWindow argument s!"{location}.arguments[{index}]"
      else do
        let child ← validateCompiledNode argument s!"{location}.arguments[{index}]"
        require (rule.allows child.resultType = true)
          (reject "TYPE_MISMATCH" location s!"{identifier} requires {rule.text}")
        return .child child)
    return compiled :: (← validateArguments arguments identifier rules (index + 1) location)
  | _, _, _, _, _ => return []

end

structure ParsedAlpha (F : Type) where
  expression : Expr F
  fieldNames : Finset String
  fieldIds : Finset String
  fieldIdsByIdentifier : OrderedMap String String
  effectiveLookback : ℕ
  estimatedWork : ℕ

/-- `{identifier: field_id for field_id, identifier in field_bindings.items()
if field_id in field_ids}`. -/
def fieldIdsByIdentifier (fieldIds : Finset String) : OrderedMap String String :=
  OrderedMap.ofRows ((fieldBindings.entries.filter fun entry => entry.1 ∈ fieldIds).map
    fun entry => ⟨entry.2, entry.1⟩)

/-- Where a result type is not among the expected ones. -/
def rootIssue (expectedTypes : List ValueType) : AlphaValidationError :=
  let message := "Expression must produce " ++ " or ".intercalate (expectedTypes.map ValueType.text)
  if expectedTypes = [.numericSeries] then reject "ROOT_MUST_BE_SERIES" "alpha.expression" message
  else reject "EXPOSURE_MUST_BE_ACCOUNT_NUMERIC" "exposure.expression" message

def validateNormalizedExpression (expression : FormulaNode F) (expectedTypes : List ValueType) :
    Except AlphaValidationError (ParsedAlpha F) := do
  let _ ← checkLimits expression 1 0
  let node ← validateCompiledNode fieldBindings expression "alpha.expression"
  require (node.estimatedWork ≤ maxEstimatedWork)
    (reject "WORK_EXCEEDS_LIMIT" "alpha.expression" "Expression exceeds work limit")
  require (node.resultType ∈ expectedTypes) (rootIssue expectedTypes)
  require (node.effectiveLookback ≤ maxEffectiveLookback)
    (reject "LOOKBACK_EXCEEDS_LIMIT" "alpha.expression"
      s!"effective lookback {node.effectiveLookback} exceeds 252")
  return ⟨node.expression, node.fields, node.fieldIds, fieldIdsByIdentifier fieldBindings
    node.fieldIds, node.effectiveLookback, node.estimatedWork⟩

def validateNormalizedAlpha (expression : FormulaNode F) :
    Except AlphaValidationError (ParsedAlpha F) :=
  validateNormalizedExpression fieldBindings expression [.numericSeries]

end Validation

end ThesisTrace.Alpha
