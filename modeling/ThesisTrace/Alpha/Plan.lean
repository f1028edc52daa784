import Mathlib.Data.List.Dedup
import Mathlib.Data.List.Lookmap
import Mathlib.Data.String.Basic
import ThesisTrace.Library.Dataflow
import ThesisTrace.Alpha.Expression

/-!
# Series execution plans

A compiled expression becomes a straight-line plan. The row evaluators run the plan on the series
of one instrument, or of all instruments where it ranks them; the columnar evaluator runs it on
matrices, with identical nodes shared and buffers released after their last use.
-/

namespace ThesisTrace.Alpha
open Numeric Transaction Dataflow

variable {F : Type}

abbrev Session := String
abbrev InstrumentId := String

/-- Rows are instruments, columns are sessions. -/
abbrev Grid (α : Type) := List (List α)

/-! ### Plans -/

inductive PlanOp (F : Type)
  | number (value : Literal F)
  | common (identifier : CommonInput) (industryCode : Option String)
  | field (fieldId : String)
  | unary (operator : UnaryOperator)
  | binary (operator : BinaryOperator)
  | builtin (builtin : Builtin)
  deriving DecidableEq

abbrev SeriesPlanNode (F : Type) := Node (PlanOp F)

/-- Append the nodes of an expression; its own node comes last. -/
def Expr.append (nodes : List (SeriesPlanNode F)) : Expr F → List (SeriesPlanNode F)
  | .number value => nodes ++ [⟨.number value, []⟩]
  | .field fieldId => nodes ++ [⟨.field fieldId, []⟩]
  | .common identifier industryCode => nodes ++ [⟨.common identifier industryCode, []⟩]
  | .unary operator operand =>
    let nodes := operand.append nodes
    nodes ++ [⟨.unary operator, [nodes.length - 1]⟩]
  | .binary operator left right =>
    let left := left.append nodes
    let right := right.append left
    right ++ [⟨.binary operator, [left.length - 1, right.length - 1]⟩]
  | .ifElse condition whenTrue whenFalse =>
    let condition := condition.append nodes
    let whenTrue := whenTrue.append condition
    let whenFalse := whenFalse.append whenTrue
    whenFalse ++ [⟨.builtin .ifElse,
      [condition.length - 1, whenTrue.length - 1, whenFalse.length - 1]⟩]
  | .pointwise function value =>
    let nodes := value.append nodes
    nodes ++ [⟨.builtin (.pointwise function), [nodes.length - 1]⟩]
  | .rank series =>
    let nodes := series.append nodes
    nodes ++ [⟨.builtin .rank, [nodes.length - 1]⟩]
  | .temporal function series window =>
    let nodes := series.append nodes
    nodes ++ [⟨.number (.int window), []⟩]
      ++ [⟨.builtin (.temporal function), [nodes.length - 1, nodes.length]⟩]

structure SeriesExecutionPlan (F : Type) where
  nodes : List (SeriesPlanNode F)
  root : ℕ
  fieldNames : List String
  effectiveLookback : ℕ

def buildSeriesExecutionPlan (compiled : ParsedAlpha F) : SeriesExecutionPlan F :=
  let nodes := compiled.expression.append []
  { nodes := nodes
    root := nodes.length - 1
    fieldNames := (compiled.fieldIdsByIdentifier.entries.map Sigma.snd).mergeSort
    effectiveLookback := compiled.effectiveLookback }

def PlanOp.isCommon : PlanOp F → Bool
  | .common _ _ => true
  | _ => false

def PlanOp.isRank : PlanOp F → Bool
  | .builtin .rank => true
  | _ => false

/-! ### TTM windows -/

/-- Elementwise operations on series and on matrices. -/
structure Elementwise (A : Type → Type) where
  map : ∀ {α β : Type}, (α → β) → A α → A β
  zipWith : ∀ {α β γ : Type}, (α → β → γ) → A α → A β → A γ

def rowwise : Elementwise List := ⟨List.map, List.zipWith⟩

def gridwise : Elementwise Grid :=
  ⟨fun f => List.map (List.map f), fun f => List.zipWith (List.zipWith f)⟩

/-- Where two windows may be combined: equal valid windows, or a value that is not TTM (`-1`). -/
def matchingWindow (left right : ℤ) : Bool :=
  left = -1 ∨ right = -1 ∨ (0 < left ∧ left = right)

def combinedWindow (left right : ℤ) : ℤ :=
  if left = -1 then right else if right = -1 then left
  else if matchingWindow left right then left else 0

section Windows

variable [Numeric F] {A : Type → Type} (arrays : Elementwise A)

def selectWindow (condition : F) (windows : ℤ × ℤ) : ℤ :=
  if isFinite condition then if toRat condition ≠ 0 then windows.1 else windows.2 else 0

/-- `_ttm_node_window`: the window of a node, and where an arithmetic node keeps its value. -/
def ttmNodeWindow (fields : List (String × A ℤ)) (op : PlanOp F) (windows : List (Option (A ℤ)))
    (condition : Option (A F)) : Option (A ℤ) × Option (A Bool) :=
  match op, windows, condition with
  | .field fieldId, _, _ => (fields.lookup fieldId, none)
  | .unary .negate, [window], _ => (window, none)
  | .builtin (.pointwise _), [window], _ => (window, none)
  | .builtin .ifElse, [_, left, right], some condition =>
    if left.isNone && right.isNone then (none, none)
    else
      let unselected := arrays.map (fun _ => (-1 : ℤ)) condition
      (some (arrays.zipWith selectWindow condition
        (arrays.zipWith Prod.mk (left.getD unselected) (right.getD unselected))), none)
  | .binary operator, [left, right], _ =>
    if operator.isArithmetic then
      match left, right with
      | none, right => (right, none)
      | left, none => (left, none)
      | some left, some right =>
        (some (arrays.zipWith combinedWindow left right),
          some (arrays.zipWith matchingWindow left right))
    else (none, none)
  | _, _, _ => (none, none)

end Windows

/-! ### Common market series -/

inductive ExclusionReason
  | insufficientHistory
  | invalidCurrentClose
  | invalidPreviousClose
  | nonFiniteReturn
  deriving DecidableEq, Repr

/-- The aggregate of the selected members of one session. -/
structure MarketDay (F : Type) where
  equalWeightReturn : F
  advancingFraction : F
  memberCount : ℕ
  validCount : ℕ
  excluded : List ExclusionReason

abbrev CommonMarketSeries (F : Type) := List (MarketDay F)

section Market

variable [Numeric F]

def positiveClose (close : F) : Bool := isFinite close && decide (0 < toRat close)

/-- The one-session return of a member, from its Closes. -/
def memberReturn (day : ℕ) (closes : List F) : Except ExclusionReason F := do
  require (day ≠ 0) .insufficientHistory
  let current := closes.getD day nan
  let previous := closes.getD (day - 1) nan
  require (positiveClose current = true) .invalidCurrentClose
  require (positiveClose previous = true) .invalidPreviousClose
  let change := sub (div current previous) (ofInt 1)
  require (isFinite change = true) .nonFiniteReturn
  return change

def marketDay (day : ℕ) (closes : List (List F)) : MarketDay F :=
  let outcomes := closes.map (memberReturn day)
  let returns := outcomes.filterMap Except.toOption
  let count : F := ofInt returns.length
  { equalWeightReturn := if returns = [] then nan else sum (returns.map (div · count))
    advancingFraction := if returns = [] then nan
      else div (ofInt (returns.countP fun value => 0 < toRat value)) count
    memberCount := closes.length
    validCount := returns.length
    excluded := outcomes.filterMap fun
      | .error reason => some reason
      | .ok _ => none }

/-- The members of a session within an industry, in order. -/
def selectedMembers (members : List InstrumentId) (industry : InstrumentId → Option String)
    (industryCode : Option String) : List InstrumentId :=
  (members.filter fun member => industryCode = none ∨ industry member = industryCode).mergeSort

/-- Aggregate governed membership before Alpha eligibility or label filtering. -/
def computeCommonMarketSeries (sessions : List Session) (instruments : List InstrumentId)
    (adjustedClose : Grid F) (universeMembers : Session → List InstrumentId)
    (industries : Session → InstrumentId → Option String) (industryCode : Option String) :
    Except EvaluationError (CommonMarketSeries F) := do
  require (adjustedClose.length = instruments.length
    ∧ ∀ row ∈ adjustedClose, row.length = sessions.length) .misaligned
  require (instruments.Nodup ∧ sessions.Pairwise (· < ·)) .misaligned
  sessions.zipIdx.mapM fun (session, day) => do
    let members := universeMembers session
    require (members.Nodup ∧ ∀ member ∈ members, member ∈ instruments) .misaligned
    return marketDay day ((selectedMembers members (industries session) industryCode).map
      fun member => adjustedClose.getD (instruments.idxOf member) [])

def CommonMetric.values : CommonMetric → CommonMarketSeries F → List F
  | equalWeightReturn, days => days.map MarketDay.equalWeightReturn
  | advancingFraction, days => days.map MarketDay.advancingFraction

abbrev CommonKey := CommonInput × Option String

/-- `_common_values`: the series of every common input that a plan reads. -/
def commonValues (nodes : List (SeriesPlanNode F))
    (aggregate : Option String → Except EvaluationError (CommonMarketSeries F)) :
    Except EvaluationError (List (CommonKey × List F)) :=
  (nodes.filterMap fun node => match node.op with
    | .common identifier industryCode => some (identifier, industryCode)
    | _ => none).mapM fun key => do
      return (key, key.1.metric.values (← aggregate key.2))

end Market

end ThesisTrace.Alpha
