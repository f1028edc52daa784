import ThesisTrace.Alpha.Shapes
import ThesisTrace.Alpha.Subexpressions

/-!
# Shapes of the nodes of a plan

The row evaluators give every node a value of the shape that its type announces.
-/

namespace ThesisTrace.Alpha
open Numeric Transaction Dataflow

variable {F : Type} [Numeric F]

/-! ### Types -/

/-- Whether a scalar expression holds an operator that broadcasts its operands. -/
def Expr.broadcasts : Expr F → Bool
  | .number _ | .field _ | .common _ _ | .rank _ | .temporal _ _ _ => false
  | .unary _ operand => operand.broadcasts
  | .binary _ _ _ => true
  | .ifElse condition whenTrue whenFalse =>
    condition.broadcasts || (whenTrue.broadcasts || whenFalse.broadcasts)
  | .pointwise _ value => value.broadcasts

lemma resultScope_isSeries (types : List ValueType) (boolean : Bool) :
    (resultScope types boolean).isSeries = types.any ValueType.isSeries := by
  unfold resultScope
  split
  · next hstock =>
    obtain ⟨type, htype, hmem⟩ := List.any_eq_true.mp hstock
    have hseries : type.isSeries = true := by
      cases type <;> first | rfl | exact absurd hmem (by decide)
    rw [List.any_eq_true.mpr ⟨type, htype, hseries⟩]
    cases boolean <;> rfl
  · split
    · next hseries =>
      rw [hseries]
      cases boolean <;> rfl
    · next hscalar =>
      rw [Bool.not_eq_true] at hscalar
      rw [hscalar]
      cases boolean <;> rfl

lemma binaryResultType_scope {operator : BinaryOperator} {left right type : ValueType}
    (h : binaryResultType operator left right = .ok type) :
    ∃ boolean, type = resultScope [left, right] boolean := by
  unfold binaryResultType at h
  simp only [bind_ok_iff, pure_ok_iff] at h
  obtain ⟨_, _, rfl⟩ := h
  exact ⟨_, rfl⟩

lemma conditionalResultType_scope {condition whenTrue whenFalse type : ValueType}
    (h : conditionalResultType condition whenTrue whenFalse = .ok type) :
    ∃ boolean, type = resultScope [condition, whenTrue, whenFalse] boolean := by
  unfold conditionalResultType at h
  rw [bind_ok_iff] at h
  obtain ⟨_, _, h⟩ := h
  split at h
  · rw [pure_ok_iff] at h
    exact ⟨false, h.symm⟩
  · simp only [bind_ok_iff, pure_ok_iff] at h
    obtain ⟨_, _, rfl⟩ := h
    exact ⟨true, rfl⟩

lemma binaryResultType_isSeries {operator : BinaryOperator} {left right type : ValueType}
    (h : binaryResultType operator left right = .ok type) :
    type.isSeries = (left.isSeries || right.isSeries) := by
  obtain ⟨boolean, rfl⟩ := binaryResultType_scope h
  rw [resultScope_isSeries]
  simp

lemma conditionalResultType_isSeries {condition whenTrue whenFalse type : ValueType}
    (h : conditionalResultType condition whenTrue whenFalse = .ok type) :
    type.isSeries = (condition.isSeries || (whenTrue.isSeries || whenFalse.isSeries)) := by
  obtain ⟨boolean, rfl⟩ := conditionalResultType_scope h
  rw [resultScope_isSeries]
  simp

/-- An expression has one type. -/
lemma Expr.Typed.unique {expression : Expr F} {type type' : ValueType}
    (h : expression.Typed type) (h' : expression.Typed type') : type = type' := by
  induction h generalizing type' with
  | number _ => cases h'; rfl
  | field _ => cases h'; rfl
  | common _ _ => cases h'; rfl
  | rank _ _ => cases h'; rfl
  | unary _ result ih =>
    cases h' with
    | unary typed' result' =>
      rw [ih typed', result'] at result
      exact (Except.ok.inj result).symm
  | binary _ _ result ihl ihr =>
    cases h' with
    | binary left' right' result' =>
      rw [ihl left', ihr right', result'] at result
      exact (Except.ok.inj result).symm
  | ifElse _ _ _ result ihc iht ihf =>
    cases h' with
    | ifElse condition' true' false' result' =>
      rw [ihc condition', iht true', ihf false', result'] at result
      exact (Except.ok.inj result).symm
  | pointwise _ _ _ ih =>
    cases h' with
    | pointwise _ typed' _ => exact ih typed'
  | temporal _ _ _ _ _ ih =>
    cases h' with
    | temporal _ typed' _ _ _ => exact ih typed'

/-- The arguments of a scalar are scalars. -/
lemma Expr.Typed.scalar_arguments {expression : Expr F} {type : ValueType}
    (h : expression.Typed type) (hscalar : type.isSeries = false) :
    (∀ fieldId, expression.op ≠ .field fieldId)
      ∧ ∀ argument ∈ expression.arguments, ∃ type, argument.Typed type ∧ type.isSeries = false := by
  cases h with
  | number _ => exact ⟨(fun _ hop => by cases hop), (fun _ hargument => by cases hargument)⟩
  | field _ => cases hscalar
  | common _ _ => cases hscalar
  | rank _ => cases hscalar
  | unary typed result =>
    rw [unaryResultType_eq result] at hscalar
    exact ⟨(fun _ hop => by cases hop), by simpa [Expr.arguments] using ⟨_, typed, hscalar⟩⟩
  | binary left right result =>
    rw [binaryResultType_isSeries result, Bool.or_eq_false_iff] at hscalar
    exact ⟨(fun _ hop => by cases hop),
      by simpa [Expr.arguments] using ⟨⟨_, left, hscalar.1⟩, ⟨_, right, hscalar.2⟩⟩⟩
  | ifElse condition whenTrue whenFalse result =>
    rw [conditionalResultType_isSeries result, Bool.or_eq_false_iff, Bool.or_eq_false_iff]
      at hscalar
    refine ⟨(fun _ hop => by cases hop), ?_⟩
    simpa [Expr.arguments] using ⟨⟨_, condition, hscalar.1⟩, ⟨_, whenTrue, hscalar.2.1⟩,
      ⟨_, whenFalse, hscalar.2.2⟩⟩
  | pointwise _ typed _ =>
    exact ⟨(fun _ hop => by cases hop), by simpa [Expr.arguments] using ⟨_, typed, hscalar⟩⟩
  | temporal _ _ temporalSeries _ _ =>
    rcases temporalSeries with rfl | rfl <;> cases hscalar

/-! ### Windows -/

lemma keeps_length (length : ℕ) :
    rowwise.Keeps rowwise fun {_} row _ => row.length = length := by
  constructor
  · intro α β f row _ h
    simp only [rowwise, List.length_map, h]
  · intro α β γ f left _ right _ hleft hright
    simp only [rowwise, List.length_zipWith, hleft, hright, Nat.min_self]

/-- Windows of aligned inputs are aligned. -/
lemma ttmNodeWindow_aligned {fields : List (String × List ℤ)} {length : ℕ}
    (hfields : ∀ field ∈ fields, field.2.length = length) (op : PlanOp F)
    {windows : List (Option (List ℤ))}
    (hwindows : ∀ window ∈ windows, ∀ row, window = some row → row.length = length)
    {condition : Option (List F)} (hcondition : ∀ row, condition = some row → row.length = length) :
    (∀ row, (ttmNodeWindow rowwise fields op windows condition).1 = some row → row.length = length)
      ∧ ∀ row, (ttmNodeWindow rowwise fields op windows condition).2 = some row →
        row.length = length := by
  have hfields' : List.Forall₂ (fun field field' : String × List ℤ =>
      field.1 = field'.1 ∧ field.2.length = length) fields fields :=
    List.forall₂_same.mpr fun field hfield => ⟨rfl, hfields field hfield⟩
  have hwindows' : List.Forall₂ (Option.Rel fun row _ => row.length = length) windows windows :=
    List.forall₂_same.mpr fun window hwindow => option_rel_self.mpr (hwindows window hwindow)
  have hrel := ttmNodeWindow_rel (keeps_length length) hfields' op hwindows'
    (option_rel_self.mpr hcondition)
  rw [option_rel_self, option_rel_self] at hrel
  exact hrel

/-- Without the windows of a field there are none. -/
lemma ttmNodeWindow_none (fields : List (String × List ℤ)) {op : PlanOp F}
    (hop : ∀ fieldId, op ≠ .field fieldId) {windows : List (Option (List ℤ))}
    (hwindows : ∀ window ∈ windows, window = none) (condition : Option (List F)) :
    ttmNodeWindow rowwise fields op windows condition = (none, none) := by
  unfold ttmNodeWindow
  split
  · exact absurd rfl (hop _)
  · rw [hwindows _ (List.mem_singleton_self _)]
  · rw [hwindows _ (List.mem_singleton_self _)]
  · next left right _ =>
    have hleft : left = none := hwindows left (by simp)
    have hright : right = none := hwindows right (by simp)
    rw [hleft, hright]
    rfl
  · next _ left right =>
    have hleft : left = none := hwindows left (by simp)
    have hright : right = none := hwindows right (by simp)
    rw [hleft, hright]
    split <;> rfl
  · rfl

/-! ### Rows -/

/-- What a row evaluator needs of its inputs. -/
structure RowInputs.Serves (inputs : RowInputs F) (expression : Expr F) : Prop where
  values : ∀ fieldId, .field fieldId ∈ expression.ops →
    (inputs.values fieldId).length = inputs.length
  common : ∀ identifier industryCode, .common identifier industryCode ∈ expression.ops →
    ∃ values, inputs.common.lookup (identifier, industryCode) = some values
      ∧ values.length = inputs.length
  windows : ∀ window ∈ inputs.windows, window.2.length = inputs.length

lemma RowInputs.Serves.arguments {inputs : RowInputs F} {expression : Expr F}
    (h : inputs.Serves expression) : ∀ argument ∈ expression.arguments, inputs.Serves argument :=
  fun _ hargument =>
    { values := fun fieldId hop => h.values fieldId (Expr.ops_arguments hargument hop)
      common := fun identifier industryCode hop =>
        h.common identifier industryCode (Expr.ops_arguments hargument hop)
      windows := h.windows }

/-- A node whose value has the shape of its type. -/
structure RowShaped (length : ℕ) (cell : RowCell F) (expression : Expr F) : Prop where
  value : ∀ type, expression.Typed type → Shaped length type expression.broadcasts cell.value
  window : ∀ window, cell.window = some window → window.length = length
  /-- Only series carry a TTM window. -/
  unwindowed : ∀ type, expression.Typed type → type.isSeries = false → cell.window = none
  literal : ∀ value, expression = .number value → cell.value = .scalar (some value.item)

variable {inputs : RowInputs F} {expression : Expr F} {type : ValueType}

lemma rowCondition_aligned {values : List (RowCell F)} (typed : expression.Typed type)
    (h : List.Forall₂ (RowShaped inputs.length) values expression.arguments) :
    ∃ condition, rowCondition inputs.length expression.op values = .ok condition
      ∧ ∀ row, condition = some row → row.length = inputs.length := by
  cases typed with
  | ifElse typedCondition _ _ _ =>
    cases h with
    | @cons cell _ values _ hcell _ =>
      obtain ⟨items, hitems, hspread⟩ := (hcell.value _ typedCondition).broadcast
      refine ⟨some (conditionRow items), ?_, ?_⟩
      · change (do return some (conditionRow (← cell.value.broadcast inputs.length))) = _
        rw [hitems]
        rfl
      · rintro row hrow
        cases hrow
        rw [conditionRow, List.length_map, hspread.aligned]
  | _ => exact ⟨none, rfl, fun _ hrow => by cases hrow⟩

lemma seriesFiniteOrMissing_length (series : Series F) :
    (Series.finiteOrMissing series).length = series.length := by
  rw [Series.finiteOrMissing, List.length_map]

/-- The value of a node, outside ranks, before windows are compared. -/
lemma rowValue_shaped (typed : expression.Typed type) (hserves : inputs.Serves expression)
    (hrank : expression.op.isRank = false) {values : List (RowCell F)}
    (h : List.Forall₂ (RowShaped inputs.length) values expression.arguments) :
    Yields Overflows (Shaped inputs.length type expression.broadcasts)
      (rowValue inputs expression.op values) := by
  cases typed with
  | @number value _ => exact .value (.scalar rfl _)
  | field fieldId =>
    refine .value (.series rfl ?_)
    rw [seriesFiniteOrMissing_length]
    exact hserves.values fieldId (List.mem_singleton_self _)
  | common identifier industryCode =>
    obtain ⟨values, hlookup, hlength⟩ :=
      hserves.common identifier industryCode (List.mem_singleton_self _)
    refine .of_ok (b := .series (Series.finiteOrMissing (values.map some))) ?_ (.series rfl ?_)
    · simp only [Expr.op, rowValue, hlookup, found, ok_bind]
      rfl
    · rw [seriesFiniteOrMissing_length, List.length_map, hlength]
  | @unary operator _ _ _ typed result =>
    obtain _ | ⟨hoperand, _ | _⟩ := h
    rw [unaryResultType_eq result]
    exact rowUnary_shaped operator (hoperand.value _ typed)
  | @binary operator _ _ _ _ _ typedLeft typedRight result =>
    obtain _ | ⟨hleft, _ | ⟨hright, _ | _⟩⟩ := h
    refine (rowBinary_spread operator (hleft.value _ typedLeft)
      (hright.value _ typedRight)).bind fun items hitems => .value ?_
    rw [← binaryResultType_isSeries result] at hitems
    exact hitems.shaped fun _ => rfl
  | ifElse typedCondition typedTrue typedFalse result =>
    obtain _ | ⟨hcondition, _ | ⟨htrue, _ | ⟨hfalse, _ | _⟩⟩⟩ := h
    exact evaluateIfElse_shaped (hcondition.value _ typedCondition) (htrue.value _ typedTrue)
      (hfalse.value _ typedFalse) (conditionalResultType_isSeries result)
  | pointwise function typed _ =>
    obtain _ | ⟨hvalue, _ | _⟩ := h
    exact evaluatePointwise_shaped function (hvalue.value _ typed)
  | rank _ => cases hrank
  | @temporal function _ _ window typed temporalSeries _ _ =>
    have hseries : type.isSeries = true := by rcases temporalSeries with rfl | rfl <;> rfl
    cases h with
    | @cons seriesCell _ _ _ hseriesCell h =>
      cases h with
      | @cons windowCell _ _ _ hwindowCell h =>
        cases h
        obtain ⟨items, hitems, haligned⟩ := (hseriesCell.value _ typed).items hseries
        change Yields _ _ (Builtin.evaluator inputs.rollingSum (.temporal function)
          [seriesCell.value, windowCell.value])
        rw [hitems, hwindowCell.literal _ rfl]
        refine (evaluator_temporal_aligned inputs.rollingSum function window haligned).mono ?_
        rintro _ ⟨results, rfl, hresults⟩
        exact .series hseries hresults

lemma forall₂_mem_left {α β : Type} {R : α → β → Prop} {xs : List α} {ys : List β}
    (h : List.Forall₂ R xs ys) {x : α} (hx : x ∈ xs) : ∃ y ∈ ys, R x y := by
  induction h with
  | nil => cases hx
  | cons hxy _ ih =>
    rcases List.mem_cons.mp hx with rfl | hrest
    · exact ⟨_, List.mem_cons_self, hxy⟩
    · obtain ⟨y, hy, hR⟩ := ih hrest
      exact ⟨y, List.mem_cons_of_mem _ hy, hR⟩

omit [Numeric F] in
lemma keepMatching_length {items : Series (Item F)} {matching : List Bool} {length : ℕ}
    (h : items.length = length) (h' : matching.length = length) :
    (keepMatching matching items).length = length := by
  rw [keepMatching, List.length_zipWith, h, h', Nat.min_self]

/-- One node of the row evaluator. -/
theorem applyRow_shaped (typed : expression.Typed type) (hserves : inputs.Serves expression)
    (hrank : expression.op.isRank = false) {values : List (RowCell F)}
    (h : List.Forall₂ (RowShaped inputs.length) values expression.arguments) :
    Yields Overflows (RowShaped inputs.length · expression)
      (applyRow inputs expression.op values) := by
  obtain ⟨condition, hcondition, haligned⟩ := rowCondition_aligned typed h
  have hwindows : ∀ window ∈ values.map RowCell.window, ∀ row, window = some row →
      row.length = inputs.length := by
    intro window hwindow row hrow
    obtain ⟨cell, hcell, rfl⟩ := List.mem_map.mp hwindow
    obtain ⟨argument, _, hshaped⟩ := forall₂_mem_left h hcell
    exact hshaped.window row hrow
  have hnode := ttmNodeWindow_aligned hserves.windows expression.op hwindows haligned
  have hnone : type.isSeries = false → ttmNodeWindow rowwise inputs.windows expression.op
      (values.map RowCell.window) condition = (none, none) := by
    intro hscalar
    obtain ⟨hop, harguments⟩ := typed.scalar_arguments hscalar
    refine ttmNodeWindow_none _ hop ?_ condition
    intro window hwindow
    obtain ⟨cell, hcell, rfl⟩ := List.mem_map.mp hwindow
    obtain ⟨argument, hargument, hshaped⟩ := forall₂_mem_left h hcell
    obtain ⟨argumentType, htyped, hargumentScalar⟩ := harguments argument hargument
    exact hshaped.unwindowed _ htyped hargumentScalar
  refine .bind_value hcondition ?_
  generalize ttmNodeWindow rowwise inputs.windows expression.op (values.map RowCell.window)
    condition = windows at hnode hnone
  obtain ⟨window, matching⟩ := windows
  cases hvalue : rowValue inputs expression.op values with
  | error e =>
    have hoverflow := (rowValue_shaped typed hserves hrank h).error hvalue
    dsimp only
    exact .failure hoverflow
  | ok value =>
    have hshaped := (rowValue_shaped typed hserves hrank h).ok hvalue
    have hliteral : ∀ literal, expression = .number literal →
        value = .scalar (some literal.item) := by
      rintro literal rfl
      cases hvalue
      rfl
    dsimp only
    rw [ok_bind]
    cases matching with
    | none =>
      refine .value ⟨?_, hnode.1, fun type' htyped hscalar => ?_, hliteral⟩
      · intro type' htyped
        rw [← typed.unique htyped]
        exact hshaped
      · rw [← typed.unique htyped] at hscalar
        exact (Prod.mk.inj (hnone hscalar)).1
    | some matching =>
      -- windows are compared only where both operands carry one
      have hseries : type.isSeries = true := by
        by_contra hscalar
        rw [Bool.not_eq_true] at hscalar
        cases (Prod.mk.inj (hnone hscalar)).2
      obtain ⟨items, hitems, hspread⟩ := hshaped.broadcast
      dsimp only
      rw [hitems, ok_bind]
      refine .value ⟨?_, hnode.1, fun type' htyped hscalar => ?_, ?_⟩
      · intro type' htyped
        rw [← typed.unique htyped]
        exact .series hseries (keepMatching_length hspread.aligned (hnode.2 matching rfl))
      · rw [← typed.unique htyped, hseries] at hscalar
        cases hscalar
      · rintro literal rfl
        cases typed
        cases hseries

/-! ### One instrument -/

/-- Every node of a plan gets a value of the shape of its type. -/
theorem run_applyRow_shaped (typed : expression.Typed type) (hserves : inputs.Serves expression)
    (hrank : ∀ op ∈ expression.ops, op.isRank = false) :
    Yields Overflows (Filled (RowShaped inputs.length) · expression.subexpressions)
      (run (fun op arguments => do applyRow inputs op (← keptValues arguments))
        (expression.append [])) := by
  let Evaluable (expression : Expr F) : Prop := (∃ type, expression.Typed type)
    ∧ inputs.Serves expression ∧ ∀ op ∈ expression.ops, op.isRank = false
  have hsub : ∀ sub ∈ expression.subexpressions, Evaluable sub := by
    refine subexpressions_induct ?_ ⟨⟨type, typed⟩, hserves, hrank⟩
    rintro other ⟨⟨_, htyped⟩, hother, hotherRank⟩ argument hargument
    exact ⟨htyped.arguments argument hargument, hother.arguments argument hargument,
      fun op hop => hotherRank op (Expr.ops_arguments hargument hop)⟩
  refine run_yields ?_ (plan_standsFor expression) hsub
  rintro sub ⟨⟨_, htyped⟩, hsubServes, hsubRank⟩ values hvalues
  rw [keptValues_some, ok_bind]
  exact applyRow_shaped htyped hsubServes (hsubRank _ sub.op_mem_ops) hvalues

omit [Numeric F] in
/-- The value that the last node of a plan leaves. -/
lemma Filled.root {V : Type} {Holds : V → Expr F → Prop} {slots : List (Option V)}
    (h : Filled Holds slots expression.subexpressions) :
    ∃ value, slotValue slots ((expression.append []).length - 1) = some value
      ∧ Holds value expression :=
  h.slot (@getElem?_subexpressions F [] [] rfl expression)

/-- The row evaluator returns a series over the sessions. -/
theorem evaluateSeriesExecutionPlan_aligned {parsed : ParsedAlpha F} {fieldNames : List String}
    (typed : parsed.expression.Typed type) (hserves : inputs.Serves parsed.expression)
    (hrank : ∀ op ∈ parsed.expression.ops, op.isRank = false)
    (hvalidate : inputs.validate fieldNames = .ok ()) :
    Yields Overflows (fun items => items.length = inputs.length)
      (evaluateSeriesExecutionPlan { buildSeriesExecutionPlan parsed with fieldNames := fieldNames }
        inputs) := by
  refine .bind_value hvalidate ?_
  refine (run_applyRow_shaped typed hserves hrank).bind fun slots hslots => ?_
  obtain ⟨root, hroot, hshaped⟩ := hslots.root
  refine .bind_value (found_ok_iff.mpr hroot) ?_
  obtain ⟨items, hitems, hspread⟩ := (hshaped.value _ typed).broadcast
  exact .of_ok hitems hspread.aligned

/-! ### All instruments -/

/-- What the matrix evaluator needs of its inputs. -/
structure MatrixInputs.Serves (inputs : MatrixInputs F) (common : List (CommonKey × List F))
    (expression : Expr F) : Prop where
  row : ∀ instrument, (inputs.row common instrument).Serves expression
  covered : ∀ session ∈ inputs.sessions, ∀ member ∈ inputs.universeMembers session,
    member ∈ inputs.instruments

/-- A node whose value has the shape of its type at every instrument. -/
def MatrixShaped (inputs : MatrixInputs F) (cell : MatrixCell F) (expression : Expr F) : Prop :=
  ∀ instrument ∈ inputs.instruments, ∃ row, cell.at instrument = .ok row
    ∧ RowShaped inputs.sessions.length row expression

section Matrix

variable {inputs : MatrixInputs F} {common : List (CommonKey × List F)}

/-- A value without a window. -/
lemma rowShaped_plain {length : ℕ} {value : PlanValue F} (typed : expression.Typed type)
    (hvalue : Shaped length type expression.broadcasts value)
    (hliteral : ∀ literal, expression = .number literal → value = .scalar (some literal.item)) :
    RowShaped length ⟨value, none⟩ expression :=
  { value := fun _ htyped => typed.unique htyped ▸ hvalue
    window := fun _ hwindow => nomatch hwindow
    unwindowed := fun _ _ _ => rfl
    literal := hliteral }

/-- A session ranks the values of members that are there. -/
lemma finiteMembers_yields {child : MatrixCell F} {series : Expr F} (typed : series.Typed type)
    (h : MatrixShaped inputs child series) {members : List InstrumentId}
    (hcovered : ∀ member ∈ members, member ∈ inputs.instruments) (index : ℕ) :
    Yields Overflows (fun _ => True)
      (finiteMembers child.value inputs.instruments members index inputs.sessions.length) := by
  refine (Yields.mapM_length fun member hmember => ?_).bind fun _ _ => .value trivial
  have hmem := hcovered member hmember
  obtain ⟨row, hrow, hshaped⟩ := h member hmem
  simp only [MatrixCell.at, bind_ok_iff, pure_ok_iff] at hrow
  obtain ⟨value, hvalue, window, _, rfl⟩ := hrow
  obtain ⟨items, hitems, _⟩ := (hshaped.value _ typed).broadcast
  refine .bind_value (b := ()) (require_ok_iff.mpr hmem) (.bind_value hvalue (.bind_value hitems ?_))
  exact .value trivial

/-- Ranks cover the sessions. -/
lemma rankMatrix_shaped {child : MatrixCell F} {series : Expr F}
    (typed : series.Typed .numericSeries) (h : MatrixShaped inputs child series)
    (hcovered : ∀ session ∈ inputs.sessions, ∀ member ∈ inputs.universeMembers session,
      member ∈ inputs.instruments) :
    Yields Overflows (fun value => ∀ instrument ∈ inputs.instruments, ∃ items,
        value.at instrument = .ok (.series items) ∧ items.length = inputs.sessions.length)
      (rankMatrix inputs child.value) := by
  have hranks : Yields Overflows (fun ranks : List (List (InstrumentId × F)) =>
      ranks.length = inputs.sessions.zipIdx.length)
      (inputs.sessions.zipIdx.mapM fun day => do
        return crossSectionRanks (← finiteMembers child.value inputs.instruments
          (inputs.universeMembers day.1) day.2 inputs.sessions.length)) := by
    refine Yields.mapM_length fun day hday => ?_
    have hsession : day.1 ∈ inputs.sessions := List.fst_mem_of_mem_zipIdx hday
    exact (finiteMembers_yields typed h (hcovered day.1 hsession) day.2).bind fun _ _ =>
      .value trivial
  refine hranks.bind fun ranks hlength => .value ?_
  intro instrument hinstrument
  refine ⟨ranks.map fun ranks => (ranks.lookup instrument).map .float, ?_, ?_⟩
  · exact found_ok_iff.mpr (List.lookup_graph _ hinstrument)
  · rw [List.length_map, hlength, List.length_zipIdx]

/-- The rows of the arguments of a node. -/
lemma matrix_rows {cells : List (MatrixCell F)} {arguments : List (Expr F)}
    (h : List.Forall₂ (MatrixShaped inputs) cells arguments) {instrument : InstrumentId}
    (hinstrument : instrument ∈ inputs.instruments) :
    ∃ values, (cells.mapM fun argument => argument.at instrument) = .ok values
      ∧ List.Forall₂ (RowShaped inputs.sessions.length) values arguments := by
  induction h with
  | nil => exact ⟨[], rfl, .nil⟩
  | @cons cell argument cells arguments hcell _ ih =>
    obtain ⟨row, hrow, hshaped⟩ := hcell instrument hinstrument
    obtain ⟨values, hvalues, hrest⟩ := ih
    refine ⟨row :: values, ?_, .cons hshaped hrest⟩
    rw [List.mapM_cons, hrow, hvalues]
    rfl

/-- Outside literals, common inputs and ranks, every instrument goes through the row operators. -/
lemma applyMatrix_byInstrument {cells : List (MatrixCell F)} (typed : expression.Typed type)
    (hserves : inputs.Serves common expression) (hrank : expression.op.isRank = false)
    (hcells : List.Forall₂ (MatrixShaped inputs) cells expression.arguments)
    (hmatrix : applyMatrix inputs common expression.op cells = do
      let rows ← inputs.instruments.mapM fun instrument => do
        let arguments ← cells.mapM fun argument => argument.at instrument
        return (instrument, ← applyRow (inputs.row common instrument) expression.op arguments)
      return ⟨.byInstrument (rows.map fun row => (row.1, row.2.value)),
        rows.map fun row => (row.1, row.2.window)⟩) :
    Yields Overflows (MatrixShaped inputs · expression)
      (applyMatrix inputs common expression.op cells) := by
  rw [hmatrix]
  have hrow : ∀ instrument ∈ inputs.instruments,
      Yields Overflows (fun row : InstrumentId × RowCell F => row.1 = instrument
        ∧ RowShaped inputs.sessions.length row.2 expression) (do
          let arguments ← cells.mapM fun argument => argument.at instrument
          return (instrument, ← applyRow (inputs.row common instrument) expression.op
            arguments)) := by
    intro instrument hinstrument
    obtain ⟨values, hvalues, hshaped⟩ := matrix_rows hcells hinstrument
    refine .bind_value hvalues ?_
    exact (applyRow_shaped typed (hserves.row instrument) hrank hshaped).bind fun row hrow =>
      .value ⟨rfl, hrow⟩
  refine (Yields.mapM hrow).bind fun rows hrows => .value ?_
  intro instrument hinstrument
  obtain ⟨row, hshaped, hlookup⟩ := lookup_forall₂
    (Q := fun _ row => RowShaped inputs.sessions.length row expression) hrows hinstrument
  refine ⟨row, ?_, hshaped⟩
  simp only [MatrixCell.at, MatrixValue.at, hlookup, found, ok_bind]
  rfl

/-- One node of the matrix evaluator. -/
theorem applyMatrix_shaped {cells : List (MatrixCell F)} (typed : expression.Typed type)
    (hserves : inputs.Serves common expression)
    (hcells : List.Forall₂ (MatrixShaped inputs) cells expression.arguments) :
    Yields Overflows (MatrixShaped inputs · expression)
      (applyMatrix inputs common expression.op cells) := by
  cases typed with
  | @number value hfinite =>
    have hshaped : RowShaped inputs.sessions.length ⟨.scalar (some value.item), none⟩
        (.number value) := by
      refine rowShaped_plain (.number hfinite) (.scalar rfl _) ?_
      rintro literal ⟨⟩
      rfl
    exact .value fun instrument hinstrument => ⟨_, plain_at hinstrument, hshaped⟩
  | common identifier industryCode =>
    obtain ⟨values, hlookup, hlength⟩ :=
      (hserves.row "").common identifier industryCode (List.mem_singleton_self _)
    have hshaped : RowShaped inputs.sessions.length
        ⟨.series (Series.finiteOrMissing (values.map some)), none⟩
        (.common identifier industryCode) := by
      refine rowShaped_plain (.common identifier industryCode) (.series rfl ?_) ?_
      · rw [seriesFiniteOrMissing_length, List.length_map]
        exact hlength
      · intro literal heq
        cases heq
    refine .bind_value (found_ok_iff.mpr hlookup) (.value ?_)
    exact fun instrument hinstrument => ⟨_, plain_at hinstrument, hshaped⟩
  | rank typed =>
    cases hcells with
    | @cons child _ _ _ hchild hrest =>
      cases hrest
      refine (rankMatrix_shaped typed hchild hserves.covered).bind fun value hvalue => .value ?_
      intro instrument hinstrument
      obtain ⟨items, hitems, hlength⟩ := hvalue instrument hinstrument
      have hlookup := List.lookup_graph (fun _ => (none : Option (List ℤ))) hinstrument
      refine ⟨⟨.series items, none⟩, ?_,
        rowShaped_plain (.rank typed) (.series rfl hlength) fun _ heq => nomatch heq⟩
      simp only [MatrixCell.at, hitems, hlookup, found, ok_bind]
      rfl
  | field fieldId => exact applyMatrix_byInstrument (.field fieldId) hserves rfl hcells rfl
  | unary typed result =>
    exact applyMatrix_byInstrument (.unary typed result) hserves rfl hcells rfl
  | binary left right result =>
    exact applyMatrix_byInstrument (.binary left right result) hserves rfl hcells rfl
  | ifElse condition whenTrue whenFalse result =>
    exact applyMatrix_byInstrument (.ifElse condition whenTrue whenFalse result) hserves rfl
      hcells rfl
  | pointwise function typed numeric =>
    exact applyMatrix_byInstrument (.pointwise function typed numeric) hserves rfl hcells rfl
  | temporal function typed temporalSeries positive bounded =>
    exact applyMatrix_byInstrument (.temporal function typed temporalSeries positive bounded)
      hserves rfl hcells rfl

lemma MatrixInputs.Serves.arguments (h : inputs.Serves common expression) :
    ∀ argument ∈ expression.arguments, inputs.Serves common argument :=
  fun argument hargument =>
    { row := fun instrument => (h.row instrument).arguments argument hargument
      covered := h.covered }

/-- Every node of a plan gets a value of the shape of its type at every instrument. -/
theorem run_applyMatrix_shaped (typed : expression.Typed type)
    (hserves : inputs.Serves common expression) :
    Yields Overflows (Filled (MatrixShaped inputs) · expression.subexpressions)
      (run (fun op arguments => do applyMatrix inputs common op (← keptValues arguments))
        (expression.append [])) := by
  let Evaluable (expression : Expr F) : Prop :=
    (∃ type, expression.Typed type) ∧ inputs.Serves common expression
  have hsub : ∀ sub ∈ expression.subexpressions, Evaluable sub := by
    refine subexpressions_induct ?_ ⟨⟨type, typed⟩, hserves⟩
    rintro other ⟨⟨_, htyped⟩, hother⟩ argument hargument
    exact ⟨htyped.arguments argument hargument, hother.arguments argument hargument⟩
  refine run_yields ?_ (plan_standsFor expression) hsub
  rintro sub ⟨⟨_, htyped⟩, hsubServes⟩ cells hcells
  rw [keptValues_some, ok_bind]
  exact applyMatrix_shaped htyped hsubServes hcells

/-- Series over the sessions, one for every instrument. -/
def AlignedSeries (inputs : MatrixInputs F) (rows : List (InstrumentId × Series (Item F))) : Prop :=
  List.Forall₂ (fun instrument row => row.1 = instrument
    ∧ row.2.length = inputs.sessions.length) inputs.instruments rows

/-- The matrix evaluator returns a series over the sessions for every instrument. -/
theorem evaluateSeriesExecutionMatrix_aligned {parsed : ParsedAlpha F}
    (typed : parsed.expression.Typed type) (hserves : inputs.Serves common parsed.expression)
    (hcommon : inputs.commonValues (buildSeriesExecutionPlan parsed).nodes = .ok common)
    (hvalues : ∀ instrument ∈ inputs.instruments,
      ∀ fieldId ∈ (buildSeriesExecutionPlan parsed).fieldNames,
        (inputs.values instrument fieldId).length = inputs.sessions.length) :
    Yields Overflows (AlignedSeries inputs)
      (evaluateSeriesExecutionMatrix (buildSeriesExecutionPlan parsed) inputs) := by
  have hwindows : ∀ instrument ∈ inputs.instruments, ∀ window ∈ inputs.windows instrument,
      window.2.length = inputs.sessions.length :=
    fun instrument _ => (hserves.row instrument).windows
  refine .bind_value hcommon (.bind_value (b := ()) (require_ok_iff.mpr hwindows) ?_)
  by_cases hrank : (buildSeriesExecutionPlan parsed).nodes.any (fun node => node.op.isRank) = true
  · rw [if_pos hrank]
    refine (run_applyMatrix_shaped typed hserves).bind fun slots hslots => ?_
    obtain ⟨root, hroot, hshaped⟩ := hslots.root
    refine .bind_value (found_ok_iff.mpr hroot) (Yields.mapM fun instrument hinstrument => ?_)
    obtain ⟨row, hrow, hrowShaped⟩ := hshaped instrument hinstrument
    simp only [MatrixCell.at, bind_ok_iff, pure_ok_iff] at hrow
    obtain ⟨value, hvalue, _, _, rfl⟩ := hrow
    obtain ⟨items, hitems, hspread⟩ := (hrowShaped.value _ typed).broadcast
    exact .bind_value hvalue (.bind_value hitems (.value ⟨rfl, hspread.aligned⟩))
  · rw [if_neg hrank]
    have hnone : ∀ op ∈ parsed.expression.ops, op.isRank = false := by
      intro op hop
      obtain ⟨node, hnode, rfl⟩ := List.mem_map.mp ((plan_ops parsed).symm ▸ hop)
      cases hop' : node.op.isRank with
      | false => rfl
      | true => exact absurd (List.any_eq_true.mpr ⟨node, hnode, hop'⟩) hrank
    refine Yields.mapM fun instrument hinstrument => ?_
    have hvalidate : (inputs.row common instrument).validate
        (buildSeriesExecutionPlan parsed).fieldNames = .ok () := by
      refine bind_ok_iff.mpr ⟨(), require_ok_iff.mpr ?_, require_ok_iff.mpr ?_⟩
      · exact hvalues instrument hinstrument
      · exact hwindows instrument hinstrument
    exact (evaluateSeriesExecutionPlan_aligned typed (hserves.row instrument) hnone
      hvalidate).bind fun items hitems => .value ⟨rfl, hitems⟩

end Matrix

end ThesisTrace.Alpha
