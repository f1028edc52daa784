import ThesisTrace.Alpha.RowRefinement
import ThesisTrace.Library.Outcomes

/-!
# Shapes of plan values

A value is a scalar or a tuple over the sessions. The row operators and the builtins keep the shape
that the type of their operands announces. They fail only where an integer is too large for
binary64.
-/

namespace ThesisTrace.Alpha
open Numeric Transaction

variable {F : Type} [Numeric F]

/-- `OverflowError`: an integer that no float can hold. -/
def Overflows (error : EvaluationError) : Prop := error = .overflow

/-! ### Items -/

section Items

variable (item : Item F)

lemma isFinite_yields : Yields Overflows (fun _ => True) item.isFinite := by
  cases item with
  | float x => exact .value trivial
  | int n =>
    by_cases h : isFinite (ofInt n : F) = true
    · exact .of_ok (int_isFinite h) trivial
    · have herror : (Item.int n : Item F).isFinite = .error .overflow := by
        simp only [Item.isFinite, require, if_neg h]
        rfl
      rw [herror]
      exact .failure rfl

lemma finite_yields : Yields Overflows (fun _ => True) item.finite :=
  (isFinite_yields item).bind fun _ _ => .value trivial

lemma finiteOrMissing_yields : Yields Overflows (fun _ => True) item.finiteOrMissing :=
  (isFinite_yields item).bind fun _ _ => .value trivial

end Items

lemma unaryItem_yields (operator : UnaryOperator) (item : Option (Item F)) :
    Yields Overflows (fun _ => True) (unaryItem operator item) := by
  cases item with
  | none => exact .value trivial
  | some item => exact finiteOrMissing_yields _

lemma binaryItem_yields (operator : BinaryOperator) (left right : Option (Item F)) :
    Yields Overflows (fun _ => True) (binaryItem operator left right) := by
  cases left with
  | none => exact .value trivial
  | some left =>
    cases right with
    | none => exact .value trivial
    | some right => exact finiteOrMissing_yields _

lemma mapNumeric_yields {operation : Item F → Except EvaluationError (Option (Item F))}
    (h : ∀ item, Yields Overflows (fun _ => True) (operation item)) (value : Option (Item F)) :
    Yields Overflows (fun _ => True) (mapNumeric operation value) := by
  cases value with
  | none => exact .value trivial
  | some item =>
    refine (isFinite_yields item).bind fun valid _ => ?_
    cases valid with
    | false => exact .value trivial
    | true => exact h item

lemma pointwiseItem_yields (function : Pointwise) (item : Item F) :
    Yields Overflows (fun _ => True) (pointwiseItem function item) := by
  cases function with
  | abs => exact finite_yields _
  | sign => exact .value trivial
  | log =>
    by_cases h : item.value ≤ 0
    · simp only [pointwiseItem, if_pos h]
      exact .value trivial
    · simp only [pointwiseItem, if_neg h]
      exact finite_yields _

lemma deltaItem_yields (current prior : Option (Item F)) :
    Yields Overflows (fun _ => True) (deltaItem current prior) := by
  cases current with
  | none => exact .value trivial
  | some current =>
    cases prior with
    | none => exact .value trivial
    | some prior => exact finite_yields _

lemma pctChangeItem_yields (current prior : Option (Item F)) :
    Yields Overflows (fun _ => True) (pctChangeItem current prior) := by
  cases current with
  | none => exact .value trivial
  | some current =>
    cases prior with
    | none => exact .value trivial
    | some prior =>
      by_cases h : prior.value = 0
      · simp only [pctChangeItem, if_pos h]
        exact .value trivial
      · simp only [pctChangeItem, if_neg h]
        exact finite_yields _

lemma choose_yields (condition whenTrue whenFalse : Option (Item F)) :
    Yields Overflows (fun _ => True) (choose condition whenTrue whenFalse) := by
  cases condition with
  | none => exact .value trivial
  | some condition =>
    refine (isFinite_yields condition).bind fun valid _ => ?_
    cases valid with
    | false => exact .value trivial
    | true =>
      rw [if_pos rfl]
      cases (if condition.value ≠ 0 then whenTrue else whenFalse) with
      | none => exact .value trivial
      | some selected => exact finite_yields selected

/-! ### Shapes -/

/-- The shape of a value of a type: a series covers the sessions, a scalar is repeated over the
sessions where an operator has broadcast it. -/
inductive Shaped (length : ℕ) : ValueType → Bool → PlanValue F → Prop
  | series {type : ValueType} {broadcasts : Bool} {items : Series (Item F)}
    (series : type.isSeries = true) (aligned : items.length = length) :
    Shaped length type broadcasts (.series items)
  | constant {type : ValueType} (scalar : type.isSeries = false) (item : Option (Item F)) :
    Shaped length type true (.series (List.replicate length item))
  | scalar {type : ValueType} (scalar : type.isSeries = false) (item : Option (Item F)) :
    Shaped length type false (.scalar item)

/-- Cells that cover the sessions, one repeated cell for a scalar type. -/
structure Spread {α : Type} (length : ℕ) (series : Bool) (cells : List α) : Prop where
  aligned : cells.length = length
  constant : series = false → ∃ cell, cells = List.replicate length cell

variable {length : ℕ} {type : ValueType} {broadcasts : Bool} {value : PlanValue F}

omit [Numeric F] in
lemma Shaped.of_series {items : Series (Item F)} (h : Shaped length type broadcasts (.series items)) :
    Spread length type.isSeries items := by
  generalize hvalue : PlanValue.series items = value at h
  cases h with
  | series hseries haligned =>
    cases hvalue
    exact ⟨haligned, fun hscalar => absurd (hseries.symm.trans hscalar) (by decide)⟩
  | constant hscalar item =>
    cases hvalue
    exact ⟨List.length_replicate, fun _ => ⟨item, rfl⟩⟩
  | scalar hscalar item => cases hvalue

omit [Numeric F] in
lemma Spread.shaped {items : Series (Item F)} (h : Spread length type.isSeries items)
    (hbroadcasts : type.isSeries = false → broadcasts = true) :
    Shaped length type broadcasts (.series items) := by
  cases hseries : type.isSeries with
  | true => exact .series hseries h.aligned
  | false =>
    obtain ⟨item, rfl⟩ := h.constant hseries
    rw [hbroadcasts hseries]
    exact .constant hseries item

omit [Numeric F] in
/-- A value of a series type is a tuple over the sessions. -/
lemma Shaped.items (h : Shaped length type broadcasts value) (hseries : type.isSeries = true) :
    ∃ items, value = .series items ∧ items.length = length := by
  cases h with
  | @series _ items _ haligned => exact ⟨items, rfl, haligned⟩
  | constant hscalar _ => exact absurd (hseries.symm.trans hscalar) (by decide)
  | scalar hscalar _ => exact absurd (hseries.symm.trans hscalar) (by decide)

omit [Numeric F] in
lemma Shaped.broadcasts_of_series {items : Series (Item F)}
    (h : Shaped length type broadcasts (.series items)) (hscalar : type.isSeries = false) :
    broadcasts = true := by
  generalize hvalue : PlanValue.series items = value at h
  cases h with
  | series hseries haligned => exact absurd (hseries.symm.trans hscalar) (by decide)
  | constant _ _ => rfl
  | scalar _ _ => cases hvalue

omit [Numeric F] in
lemma Shaped.of_scalar {item : Option (Item F)} (h : Shaped length type broadcasts (.scalar item)) :
    type.isSeries = false ∧ broadcasts = false := by
  generalize hvalue : PlanValue.scalar item = value at h
  cases h with
  | series _ _ => cases hvalue
  | constant _ _ => cases hvalue
  | scalar hscalar _ => exact ⟨hscalar, rfl⟩

section Spread

variable {α β : Type} {series series' : Bool}

lemma Spread.replicate (series : Bool) (cell : α) :
    Spread length series (List.replicate length cell) :=
  ⟨List.length_replicate, fun _ => ⟨cell, rfl⟩⟩

lemma Spread.zip {xs : List α} {ys : List β} (h : Spread length series xs)
    (h' : Spread length series' ys) : Spread length (series || series') (xs.zip ys) := by
  constructor
  · rw [List.length_zip, h.aligned, h'.aligned, Nat.min_self]
  · intro hscalar
    rw [Bool.or_eq_false_iff] at hscalar
    obtain ⟨x, rfl⟩ := h.constant hscalar.1
    obtain ⟨y, rfl⟩ := h'.constant hscalar.2
    exact ⟨(x, y), by rw [List.zip_replicate, Nat.min_self]⟩

/-- A computation on each cell. -/
lemma Spread.mapM {cells : List α} (h : Spread length series cells)
    {f : α → Except EvaluationError (Option β)}
    (hf : ∀ cell, Yields Overflows (fun _ => True) (f cell)) :
    Yields Overflows (Spread length series) (cells.mapM f) := by
  cases hseries : series with
  | true =>
    refine (Yields.mapM_length fun cell _ => hf cell).mono fun results hresults => ?_
    exact ⟨hresults.trans h.aligned, fun hfalse => nomatch hfalse⟩
  | false =>
    obtain ⟨cell, rfl⟩ := h.constant hseries
    cases hcell : f cell with
    | ok result =>
      have hmap : (List.replicate length cell).mapM f = .ok (List.replicate length result) := by
        rw [mapM_ok (g := fun _ => result), List.map_replicate]
        intro other hother
        rw [List.eq_of_mem_replicate hother, hcell]
      exact .of_ok hmap (.replicate _ _)
    | error e =>
      have hoverflow := (hf cell).error hcell
      cases length with
      | zero => exact .value ⟨rfl, fun _ => ⟨none, rfl⟩⟩
      | succ n =>
        have hmap : (List.replicate (n + 1) cell).mapM f = .error e := by
          rw [List.replicate_succ, List.mapM_cons, hcell]
          rfl
        rw [hmap]
        exact .failure hoverflow

end Spread

lemma Shaped.broadcast (h : Shaped length type broadcasts value) :
    ∃ items, value.broadcast length = .ok items ∧ Spread length type.isSeries items := by
  cases value with
  | scalar item => exact ⟨_, rfl, .replicate _ _⟩
  | series items =>
    have hspread := h.of_series
    refine ⟨items, ?_, hspread⟩
    simp only [PlanValue.broadcast, require, if_pos hspread.aligned]
    rfl

/-! ### Operators -/

omit [Numeric F] in
/-- An operation that keeps shapes: a tuple cell by cell, a scalar on its own. -/
lemma Shaped.mapM_series {items : Series (Item F)}
    (h : Shaped length type broadcasts (.series items))
    {f : Option (Item F) → Except EvaluationError (Option (Item F))}
    (hf : ∀ item, Yields Overflows (fun _ => True) (f item)) :
    Yields Overflows (Shaped length type broadcasts) (do return .series (← items.mapM f)) :=
  (h.of_series.mapM hf).bind fun _ hresults =>
    .value (hresults.shaped h.broadcasts_of_series)

lemma rowUnary_shaped (operator : UnaryOperator) (h : Shaped length type broadcasts value) :
    Yields Overflows (Shaped length type broadcasts) (rowUnary operator value) := by
  cases value with
  | series items => exact h.mapM_series (unaryItem_yields operator)
  | scalar item =>
    obtain ⟨hscalar, rfl⟩ := h.of_scalar
    exact (unaryItem_yields operator _).bind fun item _ => .value (.scalar hscalar item)

/-- A binary operator broadcasts both operands. -/
lemma rowBinary_spread (operator : BinaryOperator) {leftType rightType : ValueType}
    {leftBroadcasts rightBroadcasts : Bool} {left right : PlanValue F}
    (hleft : Shaped length leftType leftBroadcasts left)
    (hright : Shaped length rightType rightBroadcasts right) :
    Yields Overflows (Spread length (leftType.isSeries || rightType.isSeries))
      (rowBinary operator left right length) := by
  obtain ⟨leftItems, hleftItems, hleftSpread⟩ := hleft.broadcast
  obtain ⟨rightItems, hrightItems, hrightSpread⟩ := hright.broadcast
  refine .bind_value hleftItems (.bind_value hrightItems ?_)
  exact (hleftSpread.zip hrightSpread).mapM fun pair => binaryItem_yields operator pair.1 pair.2

/-! ### Builtins -/

lemma evaluatePointwise_shaped (function : Pointwise) (h : Shaped length type broadcasts value) :
    Yields Overflows (Shaped length type broadcasts) (evaluatePointwise function value) := by
  cases value with
  | series items =>
    exact h.mapM_series fun item => mapNumeric_yields (pointwiseItem_yields function) item
  | scalar item =>
    obtain ⟨hscalar, rfl⟩ := h.of_scalar
    cases item with
    | none => exact .value (.scalar hscalar none)
    | some item =>
      refine (finiteOrMissing_yields item).bind fun item _ => ?_
      exact (mapNumeric_yields (pointwiseItem_yields function) item).bind fun item _ =>
        .value (.scalar hscalar item)

lemma evaluateTemporal_aligned (sum : RollingSum F) (function : Temporal) (window : ℕ)
    (series : Series (Item F)) :
    Yields Overflows (fun items => items.length = series.length)
      (evaluateTemporal sum function window series) := by
  have hpairs : (series.zip (lag window series)).length = series.length := by
    rw [List.length_zip, lag_length, Nat.min_self]
  cases function with
  | lag => exact .value (lag_length window series)
  | delta =>
    refine (Yields.mapM_length fun pair _ => deltaItem_yields pair.1 pair.2).mono ?_
    exact fun items hitems => hitems.trans hpairs
  | pctChange =>
    refine (Yields.mapM_length fun pair _ => pctChangeItem_yields pair.1 pair.2).mono ?_
    exact fun items hitems => hitems.trans hpairs
  | tsMean =>
    refine .value ?_
    rw [List.length_map, rollingTotal_length, List.length_map]
  | tsSum =>
    refine .value ?_
    rw [List.length_map, rollingTotal_length, List.length_map]
  | tsStd =>
    refine .value ?_
    rw [List.length_map, populationStd_eq_windowed, SlidingWindow.windowed_length,
      List.length_map]
  | tsMin =>
    refine .value ?_
    rw [rollingExtreme_eq_windowed, SlidingWindow.windowed_length]
  | tsMax =>
    refine .value ?_
    rw [rollingExtreme_eq_windowed, SlidingWindow.windowed_length]

/-- A temporal builtin on a tuple and an integer window. -/
lemma evaluator_temporal_aligned (sum : RollingSum F) (function : Temporal) (window : ℤ)
    {items : Series (Item F)} (h : items.length = length) :
    Yields Overflows (fun value => ∃ results, value = .series results ∧ results.length = length)
      (Builtin.evaluator sum (.temporal function)
        [.series items, .scalar (some (.int window))]) := by
  have hfinite : ∀ item ∈ items,
      Yields Overflows (fun _ => True) (mapNumeric (F := F) (return some ·) item) := fun item _ =>
    mapNumeric_yields (fun _ => .value trivial) item
  have hwindow : Yields Overflows (fun result : Series (Item F) × ℕ => result.1.length = length)
      (seriesWindow (.series items) (.scalar (some (.int window)))) :=
    (Yields.mapM_length hfinite).bind fun finite hlength => .value (hlength.trans h)
  refine hwindow.bind fun result hresult => ?_
  refine (evaluateTemporal_aligned sum function result.2 result.1).bind fun results hresults => ?_
  exact .value ⟨results, rfl, hresults.trans hresult⟩

omit [Numeric F] in
lemma Shaped.expand (h : Shaped length type broadcasts value) :
    Spread length type.isSeries (value.expand length) := by
  cases value with
  | scalar item => exact .replicate _ item
  | series items => exact h.of_series

omit [Numeric F] in
lemma Shaped.length? (h : Shaped length type broadcasts value) :
    ∀ other ∈ value.length?, other = length := by
  intro other hother
  cases value with
  | scalar item => cases hother
  | series items =>
    cases hother
    exact h.of_series.aligned

omit [Numeric F] in
/-- A scalar that nothing broadcast is no tuple. -/
lemma Shaped.length?_none (h : Shaped length type broadcasts value)
    (hscalar : type.isSeries = false) (hbroadcasts : broadcasts = false) : value.length? = none := by
  cases value with
  | scalar item => rfl
  | series items =>
    rw [h.broadcasts_of_series hscalar] at hbroadcasts
    cases hbroadcasts

lemma evaluateIfElse_shaped {conditionType trueType falseType : ValueType}
    {conditionBroadcasts trueBroadcasts falseBroadcasts : Bool}
    {condition whenTrue whenFalse : PlanValue F}
    (hcondition : Shaped length conditionType conditionBroadcasts condition)
    (htrue : Shaped length trueType trueBroadcasts whenTrue)
    (hfalse : Shaped length falseType falseBroadcasts whenFalse)
    (htype : type.isSeries
      = (conditionType.isSeries || (trueType.isSeries || falseType.isSeries))) :
    Yields Overflows
      (Shaped length type (conditionBroadcasts || (trueBroadcasts || falseBroadcasts)))
      (evaluateIfElse condition whenTrue whenFalse) := by
  have hlengths : ∀ other ∈ [condition, whenTrue, whenFalse].filterMap PlanValue.length?,
      other = length := by
    intro other hother
    obtain ⟨value, hvalue, hlength⟩ := List.mem_filterMap.mp hother
    simp only [List.mem_cons, List.not_mem_nil, or_false] at hvalue
    rcases hvalue with rfl | rfl | rfl
    · exact hcondition.length? other hlength
    · exact htrue.length? other hlength
    · exact hfalse.length? other hlength
  unfold evaluateIfElse
  cases htuples : [condition, whenTrue, whenFalse].filterMap PlanValue.length? with
  | nil =>
    cases condition with
    | series items => simp [PlanValue.length?] at htuples
    | scalar condition =>
      cases whenTrue with
      | series items => simp [PlanValue.length?] at htuples
      | scalar whenTrue =>
        cases whenFalse with
        | series items => simp [PlanValue.length?] at htuples
        | scalar whenFalse =>
          obtain ⟨hconditionScalar, rfl⟩ := hcondition.of_scalar
          obtain ⟨htrueScalar, rfl⟩ := htrue.of_scalar
          obtain ⟨hfalseScalar, rfl⟩ := hfalse.of_scalar
          have hscalar : type.isSeries = false := by
            rw [htype, hconditionScalar, htrueScalar, hfalseScalar]
            rfl
          exact (choose_yields condition whenTrue whenFalse).bind fun item _ =>
            .value (.scalar hscalar item)
  | cons head lengths =>
    rw [htuples] at hlengths
    obtain rfl : head = length := hlengths head List.mem_cons_self
    have hothers : ∀ other ∈ lengths, other = head := fun other hother =>
      hlengths other (List.mem_cons_of_mem _ hother)
    have hrows := hcondition.expand.zip (htrue.expand.zip hfalse.expand)
    rw [← htype] at hrows
    simp only [require, if_pos hothers, ok_bind]
    refine (hrows.mapM fun row => choose_yields row.1 row.2.1 row.2.2).bind fun items hitems => ?_
    refine .value (hitems.shaped fun hscalar => ?_)
    -- one of the three is a tuple, so an operator has broadcast it
    rw [htype, Bool.or_eq_false_iff, Bool.or_eq_false_iff] at hscalar
    by_contra hbroadcasts
    simp only [Bool.not_eq_true, Bool.or_eq_false_iff] at hbroadcasts
    have hnone : [condition, whenTrue, whenFalse].filterMap PlanValue.length? = [] := by
      simp [hcondition.length?_none hscalar.1 hbroadcasts.1,
        htrue.length?_none hscalar.2.1 hbroadcasts.2.1,
        hfalse.length?_none hscalar.2.2 hbroadcasts.2.2]
    rw [hnone] at htuples
    cases htuples

end ThesisTrace.Alpha
