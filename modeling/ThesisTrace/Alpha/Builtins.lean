import Mathlib.Data.Finset.Sort
import Mathlib.Data.List.DropRight
import ThesisTrace.Alpha.Numeric

/-!
# Builtins of the alpha language

Values are scalars or series over the sessions; a missing value is `none`.
-/

namespace ThesisTrace.Alpha
open Numeric Transaction

variable {F : Type} [Numeric F]

abbrev Series (α : Type) := List (Option α)

inductive PlanValue (F : Type)
  | scalar (value : Option (Item F))
  | series (items : Series (Item F))

inductive Pointwise
  | abs
  | log
  | sign
  deriving DecidableEq, Repr

inductive Temporal
  | lag
  | delta
  | pctChange
  | tsMean
  | tsSum
  | tsStd
  | tsMin
  | tsMax
  deriving DecidableEq, Repr

inductive Builtin
  | ifElse
  | pointwise (function : Pointwise)
  | rank
  | temporal (function : Temporal)
  deriving DecidableEq, Repr

/-! ### Pointwise builtins -/

def mapNumeric (operation : Item F → Except EvaluationError (Option (Item F)))
    (value : Option (Item F)) : Except EvaluationError (Option (Item F)) :=
  match value with
  | none => return none
  | some item => do if ← item.isFinite then operation item else return none

/-- The operation on one finite value. -/
def pointwiseItem : Pointwise → Item F → Except EvaluationError (Option (Item F))
  | .abs, item => item.abs.finite
  | .log, item => if item.value ≤ 0 then return none else (Item.float (log item.toFloat)).finite
  | .sign, item =>
    return some (.float (ofInt (if item.value < 0 then -1 else if 0 < item.value then 1 else 0)))

/-- `_absolute`, `_logarithm` and `_sign`; a scalar becomes a float first. -/
def evaluatePointwise (function : Pointwise) : PlanValue F → Except EvaluationError (PlanValue F)
  | .series items => return .series (← items.mapM (mapNumeric (pointwiseItem function)))
  | .scalar none => return .scalar none
  | .scalar (some item) => do
    return .scalar (← mapNumeric (pointwiseItem function) (← item.finiteOrMissing))

/-! ### Shifts -/

def lag {α : Type} (window : ℕ) (series : Series α) : Series α :=
  (List.range series.length).map fun index =>
    if index < window then none else series[index - window]?.join

def deltaItem (current prior : Option (Item F)) : Except EvaluationError (Option (Item F)) :=
  match current, prior with
  | some current, some prior => (current.sub prior).finite
  | _, _ => return none

def pctChangeItem (current prior : Option (Item F)) : Except EvaluationError (Option (Item F)) :=
  match current, prior with
  | some current, some prior =>
    if prior.value = 0 then return none
    else (Item.float (sub (current.div prior) (ofInt 1))).finite
  | _, _ => return none

/-! ### Rolling windows -/

/-- How a window of numbers is summed while it slides. -/
structure RollingSum (F : Type) [Numeric F] where
  State : Type
  empty : State
  add : State → F → State
  /-- The sum divided by an integer, where it is finite. -/
  project : State → ℕ → Option F
  finite_of_project : ∀ state divisor value, project state divisor = some value →
    isFinite value = true

/-- Sums of the cells of a window without rounding. -/
def exactSum : RollingSum F where
  State := ℚ
  empty := 0
  add total value := total + toRat value
  project total divisor := finite (ofRat (total / divisor))
  finite_of_project _ _ _ h := isFinite_of_finite h

/-- `_CompensatedBucket`. -/
structure CompensatedBucket (F : Type) where
  total : F
  compensation : F

def CompensatedBucket.add (bucket : CompensatedBucket F) (value : F) : CompensatedBucket F :=
  let updated := Numeric.add bucket.total value
  let lost := if toRat (abs value) ≤ toRat (abs bucket.total) then
      Numeric.add (sub bucket.total updated) value
    else Numeric.add (sub value updated) bucket.total
  ⟨updated, Numeric.add bucket.compensation lost⟩

def sumBucketCount : ℕ := 67

def sumBucketScale (index : ℕ) : ℤ := -1074 + index * 32

/-- The bucket of a value, by its exponent. -/
def sumBucket (value : F) : ℕ :=
  if toRat value = 0 then 0
  else min ((frexpExponent value + 1074) / 32).toNat (sumBucketCount - 1)

/-- The buckets of a rolling total and which of them have been used. -/
structure SumBuckets (F : Type) where
  buckets : List (CompensatedBucket F)
  active : Finset ℕ

def updateSumBucket (sum : SumBuckets F) (value : F) : SumBuckets F :=
  let index := sumBucket value
  { buckets := sum.buckets.modify index (·.add (ldexp value (-sumBucketScale index)))
    active := insert index sum.active }

/-- `_project_sum_buckets`; nothing where a step overflows. -/
def projectSumBuckets (sum : SumBuckets F) (divisor : ℕ) : Option F := do
  let projected ← (sum.active.sort (· ≤ ·)).mapM fun index => do
    let bucket ← sum.buckets[index]?
    let value ← fsum [bucket.total, bucket.compensation]
    finite (ldexp (div value (ofInt divisor)) (sumBucketScale index))
  let total ← fsum projected
  finite total

/-- The sums of `ts_sum` and `ts_mean`. -/
def compensatedSum : RollingSum F where
  State := SumBuckets F
  empty := ⟨List.replicate sumBucketCount ⟨ofInt 0, ofInt 0⟩, ∅⟩
  add := updateSumBucket
  project := projectSumBuckets
  finite_of_project := by
    intro sum divisor value h
    obtain ⟨projected, _, htotal⟩ := Option.bind_eq_some_iff.mp h
    obtain ⟨total, _, hvalue⟩ := Option.bind_eq_some_iff.mp htotal
    exact isFinite_of_finite hvalue

/-- The state of a rolling total. -/
structure RollingTotal (F : Type) [Numeric F] (sum : RollingSum F) where
  buckets : sum.State
  missing : ℤ
  result : Series F

def RollingTotal.push {sum : RollingSum F} (state : RollingTotal F sum) :
    Option F → RollingTotal F sum
  | none => { state with missing := state.missing + 1 }
  | some value => { state with buckets := sum.add state.buckets value }

def RollingTotal.expire {sum : RollingSum F} (state : RollingTotal F sum) :
    Option F → RollingTotal F sum
  | none => { state with missing := state.missing - 1 }
  | some value => { state with buckets := sum.add state.buckets (neg value) }

def rollingTotalStep (sum : RollingSum F) (window divisor : ℕ) (series : Series F)
    (state : RollingTotal F sum) (index : ℕ) : RollingTotal F sum :=
  let pushed := state.push series[index]?.join
  let kept := if window ≤ index then pushed.expire series[index - window]?.join else pushed
  let value := if window ≤ index + 1 ∧ kept.missing = 0 then sum.project kept.buckets divisor
    else none
  { kept with result := kept.result ++ [value] }

/-- `_rolling_total`. -/
def rollingTotal (sum : RollingSum F) (window divisor : ℕ) (series : Series F) : Series F :=
  ((List.range series.length).foldl (rollingTotalStep sum window divisor series)
    ⟨sum.empty, 0, []⟩).result

def binary64Scale : ℕ := 2 ^ 1074

/-- `_scaled_binary64`. -/
def scaledBinary64 (value : ℚ) : ℤ := value.num * (binary64Scale / value.den : ℕ)

/-- The state of a rolling population standard deviation. -/
structure RollingDeviation (F : Type) where
  queue : Series ℤ
  missing : ℤ
  total : ℤ
  squares : ℤ
  result : Series F

def RollingDeviation.push (state : RollingDeviation F) (value : Option ℤ) :
    RollingDeviation F :=
  match value with
  | none => { state with queue := state.queue ++ [value], missing := state.missing + 1 }
  | some exact =>
    { state with
      queue := state.queue ++ [value]
      total := state.total + exact
      squares := state.squares + exact * exact }

def RollingDeviation.pop (state : RollingDeviation F) : RollingDeviation F :=
  match state.queue with
  | [] => state
  | none :: queue => { state with queue := queue, missing := state.missing - 1 }
  | some exact :: queue =>
    { state with
      queue := queue
      total := state.total - exact
      squares := state.squares - exact * exact }

/-- The square root of the exact variance of a window, rounded to binary64 first. -/
def populationDeviation (window : ℕ) (total squares : ℤ) : Option F :=
  let variance : ℚ := (squares * window - total * total)
    / (binary64Scale * binary64Scale * window * window)
  (finite (ofRat variance : F)).map fun variance =>
    sqrt (if 0 < toRat variance then variance else ofInt 0)

def rollingDeviationStep (window : ℕ) (state : RollingDeviation F) (value : Option ℤ) :
    RollingDeviation F :=
  let pushed := state.push value
  let kept := if window < pushed.queue.length then pushed.pop else pushed
  let deviation := if kept.queue.length ≠ window ∨ kept.missing ≠ 0 then none
    else populationDeviation window kept.total kept.squares
  { kept with result := kept.result ++ [deviation] }

/-- `_population_std` of a series of scaled values. -/
def populationStd (window : ℕ) (series : Series ℤ) : Series F :=
  (series.foldl (rollingDeviationStep window) ⟨[], 0, 0, 0, []⟩).result

/-- Whether a candidate can no longer be the extreme once `value` has arrived. -/
def dominated (minimum : Bool) (candidate value : ℚ) : Bool :=
  if minimum then value ≤ candidate else candidate ≤ value

/-- The state of a rolling extreme: the deque of candidates has its front first. -/
structure RollingExtreme (α : Type) where
  candidates : List (ℕ × α)
  missing : ℤ
  result : Series α

section Extreme

variable {α : Type} (value : α → ℚ) (minimum : Bool)

def pushCandidate (candidates : List (ℕ × α)) (index : ℕ) (item : α) : List (ℕ × α) :=
  candidates.rdropWhile (fun candidate => dominated minimum (value candidate.2) (value item))
    ++ [(index, item)]

def RollingExtreme.push (state : RollingExtreme α) (index : ℕ) : Option α → RollingExtreme α
  | none => { state with missing := state.missing + 1 }
  | some item =>
    { state with candidates := pushCandidate value minimum state.candidates index item }

def RollingExtreme.expire (state : RollingExtreme α) (expired : ℕ) (cell : Option α) :
    RollingExtreme α :=
  { state with
    candidates := state.candidates.dropWhile fun candidate => candidate.1 ≤ expired
    missing := if cell.isNone then state.missing - 1 else state.missing }

def rollingExtremeStep (window : ℕ) (series : Series α) (state : RollingExtreme α)
    (index : ℕ) : RollingExtreme α :=
  let pushed := state.push value minimum index series[index]?.join
  let kept := if window ≤ index then
      pushed.expire (index - window) series[index - window]?.join
    else pushed
  let value := if window ≤ index + 1 ∧ kept.missing = 0 then kept.candidates.head?.map Prod.snd
    else none
  { kept with result := kept.result ++ [value] }

/-- `_rolling_extreme`. -/
def rollingExtreme (window : ℕ) (series : Series α) : Series α :=
  ((List.range series.length).foldl (rollingExtremeStep value minimum window series)
    ⟨[], 0, []⟩).result

end Extreme

/-- `_series_window`: cells that are not finite are missing. -/
def seriesWindow : PlanValue F → PlanValue F →
    Except EvaluationError (Series (Item F) × ℕ)
  | .series items, .scalar (some (.int window)) => do
    return (← items.mapM (mapNumeric (return some ·)), window.toNat)
  | _, _ => throw .violatedSignature

def evaluateTemporal (sum : RollingSum F) (function : Temporal) (window : ℕ)
    (series : Series (Item F)) : Except EvaluationError (Series (Item F)) :=
  let floats (series : Series F) : Series (Item F) := series.map (Option.map .float)
  let binary64 := series.map (Option.map Item.toFloat)
  match function with
  | .lag => return lag window series
  | .delta => (series.zip (lag window series)).mapM fun pair => deltaItem pair.1 pair.2
  | .pctChange => (series.zip (lag window series)).mapM fun pair => pctChangeItem pair.1 pair.2
  | .tsMean => return floats (rollingTotal sum window window binary64)
  | .tsSum => return floats (rollingTotal sum window 1 binary64)
  | .tsStd =>
    return floats (populationStd window (series.map (Option.map fun item => scaledBinary64 item.value)))
  | .tsMin => return rollingExtreme Item.value true window series
  | .tsMax => return rollingExtreme Item.value false window series

/-! ### Conditional -/

def choose (condition whenTrue whenFalse : Option (Item F)) :
    Except EvaluationError (Option (Item F)) :=
  match condition with
  | none => return none
  | some condition => do
    if ← condition.isFinite then
      match if condition.value ≠ 0 then whenTrue else whenFalse with
      | none => return none
      | some selected => selected.finite
    else return none

def PlanValue.length? : PlanValue F → Option ℕ
  | .scalar _ => none
  | .series items => some items.length

/-- A scalar is repeated as it is. -/
def PlanValue.expand (length : ℕ) : PlanValue F → Series (Item F)
  | .scalar value => List.replicate length value
  | .series items => items

/-- `_if_else`. -/
def evaluateIfElse (condition whenTrue whenFalse : PlanValue F) :
    Except EvaluationError (PlanValue F) :=
  match [condition, whenTrue, whenFalse].filterMap PlanValue.length? with
  | [] => match condition, whenTrue, whenFalse with
    | .scalar condition, .scalar whenTrue, .scalar whenFalse =>
      return .scalar (← choose condition whenTrue whenFalse)
    | _, _, _ => throw .misaligned
  | length :: lengths => do
    require (∀ other ∈ lengths, other = length) .misaligned
    let rows := (condition.expand length).zip
      ((whenTrue.expand length).zip (whenFalse.expand length))
    return .series (← rows.mapM fun row => choose row.1 row.2.1 row.2.2)

/-! ### Evaluators -/

/-- The evaluator of a builtin on its arguments. -/
def Builtin.evaluator (sum : RollingSum F) :
    Builtin → List (PlanValue F) → Except EvaluationError (PlanValue F)
  | .ifElse, [condition, whenTrue, whenFalse] => evaluateIfElse condition whenTrue whenFalse
  | .pointwise function, [value] => evaluatePointwise function value
  | .rank, _ => throw .needsCrossSection
  | .temporal function, [value, window] => do
    let (series, window) ← seriesWindow value window
    return .series (← evaluateTemporal sum function window series)
  | _, _ => throw .malformedPlan

end ThesisTrace.Alpha
