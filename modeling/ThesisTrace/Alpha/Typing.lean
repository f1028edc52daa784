import ThesisTrace.Alpha.Expression

/-!
# What validation establishes

A validated expression is typed, its literals are finite and its windows lie between 1 and 252.
The lookback that the validator returns is the lookback of the expression.
-/

namespace ThesisTrace.Alpha
open Numeric Transaction

variable {F : Type} [Numeric F]

def Expr.effectiveLookback : Expr F → ℕ
  | .number _ | .field _ => 0
  | .common _ _ => 1
  | .unary _ operand => operand.effectiveLookback
  | .binary _ left right => max left.effectiveLookback right.effectiveLookback
  | .ifElse condition whenTrue whenFalse =>
    max condition.effectiveLookback
      (max whenTrue.effectiveLookback whenFalse.effectiveLookback)
  | .pointwise _ value => value.effectiveLookback
  | .rank series => series.effectiveLookback
  | .temporal function series window =>
    function.lookbackRule.effectiveLookback series.effectiveLookback (some window)

def Literal.Finite (value : Literal F) : Prop :=
  isFinite value.item.toFloat = true

inductive Expr.Typed : Expr F → ValueType → Prop
  | number {value : Literal F} (finite : value.Finite) : Typed (.number value) .number
  | field (fieldId : String) : Typed (.field fieldId) .numericSeries
  | common (input : CommonInput) (industryCode : Option String) :
    Typed (.common input industryCode) .commonNumericSeries
  | unary {operator : UnaryOperator} {operand : Expr F} {operandType type : ValueType}
    (typed : Typed operand operandType) (result : unaryResultType operator operandType = .ok type) :
    Typed (.unary operator operand) type
  | binary {operator : BinaryOperator} {left right : Expr F} {leftType rightType type : ValueType}
    (typedLeft : Typed left leftType) (typedRight : Typed right rightType)
    (result : binaryResultType operator leftType rightType = .ok type) :
    Typed (.binary operator left right) type
  | ifElse {condition whenTrue whenFalse : Expr F}
    {conditionType trueType falseType type : ValueType}
    (typedCondition : Typed condition conditionType) (typedTrue : Typed whenTrue trueType)
    (typedFalse : Typed whenFalse falseType)
    (result : conditionalResultType conditionType trueType falseType = .ok type) :
    Typed (.ifElse condition whenTrue whenFalse) type
  | pointwise (function : Pointwise) {value : Expr F} {type : ValueType}
    (typed : Typed value type) (numeric : type.isNumeric = true) :
    Typed (.pointwise function value) type
  | rank {series : Expr F} (typed : Typed series .numericSeries) :
    Typed (.rank series) .numericSeries
  | temporal (function : Temporal) {series : Expr F} {type : ValueType} {window : ℕ}
    (typed : Typed series type)
    (temporalSeries : type = .numericSeries ∨ type = .commonNumericSeries)
    (positive : 1 ≤ window) (bounded : window ≤ 252) :
    Typed (.temporal function series window) type

/-- What a compiled node says about its expression. -/
structure CompiledNode.Sound (node : CompiledNode F) : Prop where
  typed : node.expression.Typed node.resultType
  lookback : node.effectiveLookback = node.expression.effectiveLookback

/-- A compiled argument that follows its parameter. -/
inductive CompiledArgument.Follows : CompiledArgument F → ParameterRule → Prop
  | window {size : ℕ} (positive : 1 ≤ size) (bounded : size ≤ 252) :
    Follows (.window size) .window
  | child {node : CompiledNode F} {rule : ParameterRule} (sound : node.Sound)
    (notWindow : rule ≠ .window) (allowed : rule.allows node.resultType = true) :
    Follows (.child node) rule

omit [Numeric F] in
lemma validateWindow_ok {argument : FormulaNode F} {location : String} {window : ℕ}
    (h : validateWindow argument location = .ok window) : 1 ≤ window ∧ window ≤ 252 := by
  unfold validateWindow at h
  split at h
  · simp only [bind_ok_iff, require_ok_iff, pure_ok_iff] at h
    obtain ⟨_, hbounds, rfl⟩ := h
    omega
  · cases h

lemma validateLiteral_ok {value : Option (Literal F)} {location : String} {literal : Literal F}
    (h : validateLiteral value location = .ok literal) : literal.Finite := by
  unfold validateLiteral at h
  split at h
  · cases h
  all_goals
    simp only [bind_ok_iff, require_ok_iff, pure_ok_iff] at h
    obtain ⟨_, hfinite, rfl⟩ := h
    exact hfinite

lemma compileCall_sound {builtin : Builtin} {arguments : List (CompiledArgument F)}
    {location : String} {compiled : CompiledNode F}
    (harguments : List.Forall₂ CompiledArgument.Follows arguments builtin.definition.parameters)
    (h : compileCall builtin arguments location = .ok compiled) : compiled.Sound := by
  unfold compileCall at h
  simp only [bind_ok_iff, mapError_ok_iff, found_ok_iff, pure_ok_iff] at h
  obtain ⟨resultType, hresult, expression, hexpression, rfl⟩ := h
  cases builtin with
  | ifElse =>
    obtain _ | ⟨_ | ⟨hcondition, _, _⟩, _ | ⟨_ | ⟨htrue, _, _⟩, _ | ⟨_ | ⟨hfalse, _, _⟩, _ | _⟩⟩⟩ :=
      harguments
    cases hexpression
    refine ⟨.ifElse hcondition.typed htrue.typed hfalse.typed hresult, ?_⟩
    simp [LookbackRule.effectiveLookback, Builtin.definition, CompiledArgument.child?,
      Expr.effectiveLookback, hcondition.lookback, htrue.lookback, hfalse.lookback]
  | pointwise function =>
    cases function
    all_goals
      obtain _ | ⟨_ | ⟨hvalue, _, hallowed⟩, _ | _⟩ := harguments
      cases hexpression
      cases hresult
      refine ⟨.pointwise _ hvalue.typed hallowed, ?_⟩
      simp [LookbackRule.effectiveLookback, Builtin.definition, CompiledArgument.child?,
        Expr.effectiveLookback, hvalue.lookback]
  | rank =>
    obtain _ | ⟨_ | ⟨hseries, _, hallowed⟩, _ | _⟩ := harguments
    cases hexpression
    cases hresult
    have htype := of_decide_eq_true hallowed
    refine ⟨.rank (htype ▸ hseries.typed), ?_⟩
    simp [LookbackRule.effectiveLookback, Builtin.definition, CompiledArgument.child?,
      Expr.effectiveLookback, hseries.lookback]
  | temporal function =>
    obtain _ | ⟨_ | ⟨hseries, _, hallowed⟩, _ | ⟨⟨hpositive, hbounded⟩ | ⟨_, hrule, _⟩, _ | _⟩⟩ :=
      harguments
    · cases hexpression
      cases hresult
      refine ⟨.temporal function hseries.typed ?_ hpositive hbounded, ?_⟩
      · simpa [ParameterRule.allows, CompiledArgument.resultType] using hallowed
      · simp [Builtin.definition, List.filterMap_cons, CompiledArgument.child?,
          CompiledArgument.window?, Expr.effectiveLookback, hseries.lookback]
    · exact absurd rfl hrule

mutual

/-- A validated node is typed. -/
theorem validateCompiledNode_sound (fieldBindings : FieldBindings) :
    ∀ (node : FormulaNode F) {location : String} {compiled : CompiledNode F},
      validateCompiledNode fieldBindings node location = .ok compiled → compiled.Sound
  | .number value, location, compiled, h => by
    rw [validateCompiledNode] at h
    simp only [bind_ok_iff, pure_ok_iff] at h
    obtain ⟨literal, hliteral, rfl⟩ := h
    exact ⟨.number (validateLiteral_ok hliteral), rfl⟩
  | .field fieldId, location, compiled, h => by
    rw [validateCompiledNode] at h
    simp only [bind_ok_iff, pure_ok_iff] at h
    obtain ⟨name, _, rfl⟩ := h
    exact ⟨.field fieldId, rfl⟩
  | .common identifier industryCode, location, compiled, h => by
    rw [validateCompiledNode] at h
    simp only [bind_ok_iff, pure_ok_iff] at h
    obtain ⟨⟨input, code⟩, _, close, _, rfl⟩ := h
    exact ⟨.common input code, rfl⟩
  | .unary operator operand, location, compiled, h => by
    rw [validateCompiledNode] at h
    simp only [bind_ok_iff, mapError_ok_iff, pure_ok_iff] at h
    obtain ⟨operator, _, child, hchild, resultType, hresult, rfl⟩ := h
    have hsound := validateCompiledNode_sound fieldBindings operand hchild
    exact ⟨.unary hsound.typed hresult, hsound.lookback⟩
  | .binary operator left right, location, compiled, h => by
    rw [validateCompiledNode] at h
    simp only [bind_ok_iff, mapError_ok_iff, pure_ok_iff] at h
    obtain ⟨operator, _, leftNode, hleft, rightNode, hright, resultType, hresult, rfl⟩ := h
    have hsoundLeft := validateCompiledNode_sound fieldBindings left hleft
    have hsoundRight := validateCompiledNode_sound fieldBindings right hright
    refine ⟨.binary hsoundLeft.typed hsoundRight.typed hresult, ?_⟩
    simp only [Expr.effectiveLookback, hsoundLeft.lookback, hsoundRight.lookback]
  | .call identifier arguments, location, compiled, h => by
    rw [validateCompiledNode] at h
    simp only [bind_ok_iff, require_ok_iff, found_ok_iff] at h
    obtain ⟨_, _, builtin, _, _, hlength, compiledArguments, harguments, hcall⟩ := h
    exact compileCall_sound
      (validateArguments_follow fieldBindings arguments hlength harguments) hcall

/-- Validated arguments follow their parameters. -/
theorem validateArguments_follow (fieldBindings : FieldBindings) :
    ∀ (arguments : List (FormulaNode F)) {identifier : String} {rules : List ParameterRule}
      {index : ℕ} {location : String} {compiled : List (CompiledArgument F)},
      arguments.length = rules.length →
      validateArguments fieldBindings arguments identifier rules index location = .ok compiled →
        List.Forall₂ CompiledArgument.Follows compiled rules
  | [], identifier, rules, index, location, compiled, hlength, h => by
    rw [List.length_nil] at hlength
    rw [List.eq_nil_of_length_eq_zero hlength.symm]
    rw [validateArguments.eq_2 _ _ _ _ _ _ (by simp)] at h
    cases h
    exact .nil
  | argument :: arguments, identifier, [], index, location, compiled, hlength, h => by
    cases hlength
  | argument :: arguments, identifier, rule :: rules, index, location, compiled, hlength, h => by
    rw [validateArguments] at h
    simp only [bind_ok_iff, pure_ok_iff] at h
    obtain ⟨first, hfirst, rest, hrest, rfl⟩ := h
    have hlength' : arguments.length = rules.length := by
      simpa using hlength
    refine .cons ?_ (validateArguments_follow fieldBindings arguments hlength' hrest)
    split at hfirst
    · next hwindow =>
      subst hwindow
      simp only [Functor.map, map_ok_iff] at hfirst
      obtain ⟨window, hwindow, rfl⟩ := hfirst
      have hbounds := validateWindow_ok hwindow
      exact .window hbounds.1 hbounds.2
    · next hwindow =>
      simp only [bind_ok_iff, require_ok_iff, pure_ok_iff] at hfirst
      obtain ⟨child, hchild, _, hallowed, rfl⟩ := hfirst
      exact .child (validateCompiledNode_sound fieldBindings argument hchild) hwindow hallowed

end

/-- A validated expression has an expected type, and its lookback is the one returned. -/
theorem validateNormalizedExpression_sound {fieldBindings : FieldBindings}
    {expression : FormulaNode F} {expectedTypes : List ValueType} {parsed : ParsedAlpha F}
    (h : validateNormalizedExpression fieldBindings expression expectedTypes = .ok parsed) :
    (∃ type ∈ expectedTypes, parsed.expression.Typed type)
      ∧ parsed.effectiveLookback = parsed.expression.effectiveLookback := by
  unfold validateNormalizedExpression at h
  simp only [bind_ok_iff, require_ok_iff, pure_ok_iff] at h
  obtain ⟨_, _, node, hnode, _, _, _, htype, _, _, rfl⟩ := h
  have hsound := validateCompiledNode_sound fieldBindings expression hnode
  exact ⟨⟨_, htype, hsound.typed⟩, hsound.lookback⟩

/-- A validated alpha is a typed stock series whose lookback is the one returned. -/
theorem validateNormalizedAlpha_sound {fieldBindings : FieldBindings}
    {expression : FormulaNode F} {parsed : ParsedAlpha F}
    (h : validateNormalizedAlpha fieldBindings expression = .ok parsed) :
    parsed.expression.Typed .numericSeries
      ∧ parsed.effectiveLookback = parsed.expression.effectiveLookback := by
  obtain ⟨⟨type, htype, htyped⟩, hlookback⟩ := validateNormalizedExpression_sound h
  rw [List.mem_singleton] at htype
  exact ⟨htype ▸ htyped, hlookback⟩

end ThesisTrace.Alpha
