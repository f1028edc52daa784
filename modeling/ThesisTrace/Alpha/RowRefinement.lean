import Mathlib.Tactic.NormNum
import ThesisTrace.Alpha.ColumnarRefinement

/-!
# The row evaluators compute the meaning

An integer literal stays an integer in the row evaluators where `if_else` hands it on, until an
operator turns it into a float. Where every integer that is handed on is one that binary64
represents, the row evaluators compute the cells of the columnar evaluator.
-/

namespace ThesisTrace.Alpha
open Numeric Transaction Dataflow

variable {F : Type} [Numeric F]

/-! ### Integers in series -/

/-- The integer of a literal. -/
def Expr.literalInteger : Expr F → ℤ → Prop
  | .number (.int value), n => n = value
  | _, _ => False

/-- The integers that can stand in the series of an expression: integer branches of `if_else`, and
what shifts, extremes, differences and absolute values make of them. -/
def Expr.carried : Expr F → ℤ → Prop
  | .ifElse _ whenTrue whenFalse, n =>
    (whenTrue.carried n ∨ whenTrue.literalInteger n)
      ∨ (whenFalse.carried n ∨ whenFalse.literalInteger n)
  | .pointwise function value, n => pointwiseIntegers function value.carried n
  | .temporal function series _, n => temporalIntegers function series.carried n
  | _, _ => False

/-- Binary64 represents every integer that a subexpression hands on. -/
def Expr.IntegersExact : Expr F → Prop
  | .number _ | .field _ | .common _ _ => True
  | .unary _ operand => operand.IntegersExact
  | .binary _ left right => left.IntegersExact ∧ right.IntegersExact
  | .ifElse condition whenTrue whenFalse =>
    condition.IntegersExact ∧ whenTrue.IntegersExact ∧ whenFalse.IntegersExact
      ∧ ∀ n, (ifElse condition whenTrue whenFalse).carried n → Representable F n
  | .pointwise function value =>
    value.IntegersExact ∧ ∀ n, (pointwise function value).carried n → Representable F n
  | .rank series => series.IntegersExact
  | .temporal function series window =>
    series.IntegersExact ∧ ∀ n, (temporal function series window).carried n → Representable F n

lemma Expr.IntegersExact.carried {expression : Expr F} (h : expression.IntegersExact) :
    ∀ n, expression.carried n → Representable F n := by
  cases expression with
  | ifElse _ _ _ => exact h.2.2.2
  | pointwise _ _ => exact h.2
  | temporal _ _ _ => exact h.2
  | _ => exact fun n hfalse => hfalse.elim

lemma Expr.IntegersExact.arguments {expression : Expr F} (h : expression.IntegersExact) :
    ∀ argument ∈ expression.arguments, argument.IntegersExact := by
  cases expression with
  | number _ => exact fun _ hmem => nomatch hmem
  | field _ => exact fun _ hmem => nomatch hmem
  | common _ _ => exact fun _ hmem => nomatch hmem
  | unary _ _ => simpa [Expr.arguments, Expr.IntegersExact] using h
  | binary _ _ _ => simpa [Expr.arguments, Expr.IntegersExact] using h
  | ifElse _ _ _ => simpa [Expr.arguments] using ⟨h.1, h.2.1, h.2.2.1⟩
  | pointwise _ _ => simpa [Expr.arguments] using h.1
  | rank _ => simpa [Expr.arguments, Expr.IntegersExact] using h
  | temporal _ _ _ => simpa [Expr.arguments, Expr.IntegersExact] using h.1

/-! ### Cells -/

variable {I J S : ℤ → Prop}

/-- A float result stands for the columnar result. -/
lemma float_finiteOrMissing_stands (x : F) :
    ∃ result, (Item.float x).finiteOrMissing = .ok result ∧ Stands I result (finite x) :=
  ⟨_, float_finiteOrMissing x, stands_finite x⟩

/-- An integer result is rounded to the columnar result. -/
lemma int_finiteOrMissing_stands {n : ℤ} {x : F} (h : isFinite (ofInt n : F) = true)
    (hx : x = ofInt n) :
    ∃ result, (Item.int n : Item F).finiteOrMissing = .ok result ∧ Stands I result (finite x) := by
  subst hx
  exact ⟨_, int_finiteOrMissing h, by rw [finite_of_isFinite h]; exact .float h⟩

lemma unaryItem_stands (hI : ∀ n, I n → Representable F n) (operator : UnaryOperator)
    {item : Option (Item F)} {x : Option F} (h : Stands I item x) :
    ∃ result, unaryItem operator item = .ok result
      ∧ Stands J result (x.bind fun value => finite (columnarUnary operator value)) := by
  cases item with
  | none =>
    cases h
    exact ⟨none, rfl, .missing⟩
  | some item =>
    obtain ⟨x, rfl⟩ : ∃ y, x = some y := by cases h <;> exact ⟨_, rfl⟩
    have hfinite := h.isFinite.2
    cases operator with
    | not =>
      simp only [unaryItem, applyUnary, Option.bind_some, columnarUnary, hfinite, if_true,
        h.value hI]
      exact float_finiteOrMissing_stands _
    | negate =>
      simp only [unaryItem, applyUnary, Option.bind_some, columnarUnary, hfinite, if_true]
      cases h with
      | float _ => exact float_finiteOrMissing_stands _
      | @int n _ hn =>
        refine int_finiteOrMissing_stands ?_ ?_
        · exact isFinite_of_abs_le_add (hI n hn) (hI n hn)
            (by rw [abs_neg]; exact le_add_of_nonneg_right (abs_nonneg n))
        · exact neg_ofRat n

/-- Exact arithmetic on two integers rounds to the columnar result. -/
lemma arithmetic_stands {exact : ℤ → ℤ → ℤ} {operation : F → F → F}
    (hint : ∀ a b, I a → J b → isFinite (ofInt (exact a b) : F) = true
      ∧ operation (ofInt a) (ofInt b) = ofInt (exact a b))
    {left right : Item F} {x y : F} (hleft : Stands I (some left) (some x))
    (hright : Stands J (some right) (some y)) :
    ∃ result, (Item.arithmetic exact operation left right).finiteOrMissing = .ok result
      ∧ Stands S result (finite (operation x y)) := by
  cases hleft with
  | float _ => cases hright <;> exact float_finiteOrMissing_stands _
  | @int a _ ha =>
    cases hright with
    | float _ => exact float_finiteOrMissing_stands _
    | @int b _ hb =>
      obtain ⟨hfinite, hvalue⟩ := hint a b ha hb
      exact int_finiteOrMissing_stands hfinite hvalue

lemma isFinite_mul {a b : ℤ} (ha : Representable F a) (hb : Representable F b) :
    isFinite (ofInt (a * b) : F) = true := by
  apply isFinite_ofInt
  rw [abs_mul]
  exact_mod_cast mul_lt_mul'' ha.2 hb.2 (abs_nonneg a) (abs_nonneg b)

lemma binaryItem_stands (hI : ∀ n, I n → Representable F n) (hJ : ∀ n, J n → Representable F n)
    (operator : BinaryOperator) {left right : Option (Item F)} {x y : Option F}
    (hleft : Stands I left x) (hright : Stands J right y) :
    ∃ result, binaryItem operator left right = .ok result
      ∧ Stands S result (x.bind fun x => y.bind fun y => finite (columnarBinary operator x y)) := by
  cases left with
  | none =>
    cases hleft
    exact ⟨none, rfl, .missing⟩
  | some left =>
    cases right with
    | none =>
      cases hright
      refine ⟨none, rfl, ?_⟩
      cases x <;> exact .missing
    | some right =>
      obtain ⟨x, rfl⟩ : ∃ z, x = some z := by cases hleft <;> exact ⟨_, rfl⟩
      obtain ⟨y, rfl⟩ : ∃ z, y = some z := by cases hright <;> exact ⟨_, rfl⟩
      have hx := hleft.isFinite.2
      have hy := hright.isFinite.2
      have hxValue := hleft.value hI
      have hyValue := hright.value hJ
      simp only [binaryItem, Option.bind_some, columnarBinary, hx, hy, true_and]
      cases operator with
      | add =>
        refine arithmetic_stands (fun a b ha hb => ⟨?_, ?_⟩) hleft hright
        · exact isFinite_of_abs_le_add (hI a ha) (hJ b hb) (abs_add_le a b)
        · exact add_ofRat a b (hI a ha).1 (hJ b hb).1
      | subtract =>
        refine arithmetic_stands (fun a b ha hb => ⟨?_, ?_⟩) hleft hright
        · exact isFinite_of_abs_le_add (hI a ha) (hJ b hb) (abs_sub a b)
        · exact sub_ofRat a b (hI a ha).1 (hJ b hb).1
      | multiply =>
        refine arithmetic_stands (fun a b ha hb => ⟨?_, ?_⟩) hleft hright
        · exact isFinite_mul (hI a ha) (hJ b hb)
        · exact mul_ofRat a b (hI a ha).1 (hJ b hb).1
      | divide =>
        simp only [applyBinary, columnarOperation, hyValue, forall_const]
        by_cases hzero : toRat y = 0
        · rw [if_pos hzero, if_neg (not_not.mpr hzero)]
          exact float_finiteOrMissing_stands _
        · rw [if_neg hzero, if_pos hzero, div_stands (fun _ h => h) (hleft.mono hI)
            (hright.mono hJ) hzero]
          exact float_finiteOrMissing_stands _
      | _ =>
        simp only [applyBinary, columnarOperation, hxValue, hyValue]
        exact float_finiteOrMissing_stands _

/-! ### Columnar cells -/

lemma finite_columnarUnary (operator : UnaryOperator) (x : F) :
    finite (columnarUnary operator x)
      = (finite x).bind fun value => finite (columnarUnary operator value) := by
  cases h : isFinite x with
  | false => simp [columnarUnary, finite, h, isFinite_nan]
  | true => simp [finite_of_isFinite h]

lemma finite_columnarBinary (operator : BinaryOperator) (x y : F) :
    finite (columnarBinary operator x y)
      = (finite x).bind fun x => (finite y).bind fun y => finite (columnarBinary operator x y) := by
  cases hx : isFinite x with
  | false => simp [columnarBinary, finite, hx, isFinite_nan]
  | true =>
    cases hy : isFinite y with
    | false => simp [columnarBinary, finite, hx, hy, isFinite_nan]
    | true => simp [finite_of_isFinite hx, finite_of_isFinite hy]

lemma finite_columnarIfElse (condition : F) (branches : F × F) :
    finite (columnarIfElse condition branches)
      = (finite condition).bind fun condition =>
        if toRat condition ≠ 0 then finite branches.1 else finite branches.2 := by
  cases h : isFinite condition with
  | false => simp [columnarIfElse, finite, h, isFinite_nan]
  | true =>
    simp only [columnarIfElse, h, if_true, finite_of_isFinite h, Option.bind_some]
    split <;> rfl

lemma zipWith_map_finite {α β : Type} {f : F → β → F} (cell : β → α)
    (g : Option F → α → Option F) (h : ∀ x y, finite (f x y) = g (finite x) (cell y))
    (row : List F) (row' : List β) :
    (List.zipWith f row row').map finite
      = ((row.map finite).zip (row'.map cell)).map fun pair => g pair.1 pair.2 := by
  induction row generalizing row' with
  | nil => rfl
  | cons x row ih =>
    cases row' with
    | nil => rfl
    | cons y row' => simp [h, ih]

/-! ### Rows -/

variable {length : ℕ}

lemma rowUnary_stands (hI : ∀ n, I n → Representable F n) (operator : UnaryOperator)
    {value : PlanValue F} {row : List F} (h : RowStands I S length value row) :
    ∃ result, rowUnary operator value = .ok result
      ∧ RowStands (fun _ => False) (fun _ => False) length result
        (row.map (columnarUnary operator)) := by
  have hrow : (row.map (columnarUnary operator)).map finite
      = (row.map finite).map (·.bind fun value => finite (columnarUnary operator value)) := by
    rw [List.map_map, List.map_map]
    exact List.map_congr_left fun x _ => finite_columnarUnary operator x
  cases h with
  | series hlength hstands =>
    obtain ⟨items, hitems, hresult⟩ := mapM_forall₂ hstands fun item x hcell =>
      unaryItem_stands hI operator hcell
    refine ⟨.series items, ?_, .series (by rw [List.length_map, hlength]) ?_⟩
    · simp only [rowUnary, hitems, ok_bind]
      rfl
    · rw [hrow]
      exact hresult
  | @scalar item _ x hstands hconstant =>
    have hfloat : Stands (fun _ => False) (item.map fun item => .float item.toFloat) x := by
      cases hstands with
      | missing => exact .missing
      | float hfinite => exact .float hfinite
      | int hfinite _ => exact .float hfinite
    obtain ⟨result, hresult, hresultStands⟩ :=
      unaryItem_stands (J := fun _ => False) (fun _ hfalse => hfalse.elim) operator hfloat
    refine ⟨.scalar result, ?_, .scalar hresultStands ?_⟩
    · simp only [rowUnary, hresult, ok_bind]
      rfl
    · rw [hrow, hconstant, List.map_replicate]

lemma rowBinary_stands (hI : ∀ n, I n → Representable F n) (hJ : ∀ n, J n → Representable F n)
    {S' : ℤ → Prop} (operator : BinaryOperator) {left right : PlanValue F} {row row' : List F}
    (hleft : RowStands I S length left row) (hright : RowStands J S' length right row') :
    ∃ items, rowBinary operator left right length = .ok items
      ∧ RowStands (fun _ => False) (fun _ => False) length (.series items)
        (List.zipWith (columnarBinary operator) row row') := by
  obtain ⟨leftItems, hleftItems, hleftStands⟩ := hleft.broadcast
  obtain ⟨rightItems, hrightItems, hrightStands⟩ := hright.broadcast
  obtain ⟨items, hitems, hresult⟩ := mapM_forall₂ (forall₂_zip hleftStands hrightStands)
    fun p q hpq => binaryItem_stands (S := fun _ => False) hI hJ operator hpq.1 hpq.2
  refine ⟨items, ?_, .series ?_ ?_⟩
  · simp only [rowBinary, hleftItems, hrightItems, ok_bind]
    exact hitems
  · rw [List.length_zipWith, hleft.length_eq, hright.length_eq, Nat.min_self]
  · rw [zipWith_map_finite finite (fun x y => x.bind fun x => y.bind fun y =>
      finite (columnarBinary operator x y)) (finite_columnarBinary operator)]
    exact hresult

/-! ### Conditional -/

lemma choose_stands {C : ℤ → Prop} (hC : ∀ n, C n → Representable F n)
    {condition whenTrue whenFalse : Option (Item F)} {c x y : Option F}
    (hcondition : Stands C condition c) (htrue : Stands I whenTrue x)
    (hfalse : Stands J whenFalse y) :
    ∃ result, choose condition whenTrue whenFalse = .ok result
      ∧ Stands (fun n => I n ∨ J n) result
        (c.bind fun value => if toRat value ≠ 0 then x else y) := by
  cases condition with
  | none =>
    cases hcondition
    exact ⟨none, rfl, .missing⟩
  | some condition =>
    obtain ⟨c, rfl⟩ : ∃ z, c = some z := by cases hcondition <;> exact ⟨_, rfl⟩
    have hselected : ∀ {K : ℤ → Prop} {item : Item F} {z : Option F}, Stands K (some item) z →
        item.finite = .ok (some item) := by
      intro K item z hstands
      obtain ⟨z, rfl⟩ : ∃ w, z = some w := by cases hstands <;> exact ⟨_, rfl⟩
      simp only [Item.finite, hstands.isFinite.1, ok_bind, if_true]
      rfl
    simp only [choose, hcondition.isFinite.1, ok_bind, if_true, hcondition.value hC,
      Option.bind_some]
    by_cases hc : toRat c ≠ 0
    · rw [if_pos hc, if_pos hc]
      refine ⟨whenTrue, ?_, htrue.mono fun _ hn => .inl hn⟩
      cases whenTrue with
      | none => rfl
      | some item => exact hselected htrue
    · rw [if_neg hc, if_neg hc]
      refine ⟨whenFalse, ?_, hfalse.mono fun _ hn => .inr hn⟩
      cases whenFalse with
      | none => rfl
      | some item => exact hselected hfalse

/-- A branch of `if_else` keeps the integers of a scalar. -/
lemma RowStands.expand {value : PlanValue F} {row : List F}
    (h : RowStands I S length value row) :
    SeriesStands (fun n => I n ∨ S n) (value.expand length) (row.map finite)
      ∧ ∀ other ∈ value.length?, other = length := by
  cases h with
  | @series items _ hlength hstands =>
    refine ⟨hstands.imp fun _ _ hcell => hcell.mono fun _ => .inl, ?_⟩
    intro other hother
    cases hother
    rw [hstands.length_eq, List.length_map, hlength]
  | scalar hstands hconstant =>
    refine ⟨?_, fun _ hother => nomatch hother⟩
    rw [hconstant]
    exact forall₂_replicate (hstands.mono fun _ => .inr) length

lemma evaluateIfElse_stands {C I' S' : ℤ → Prop} (hC : ∀ n, C n → Representable F n)
    {items : Series (Item F)} {whenTrue whenFalse : PlanValue F} {row rowTrue rowFalse : List F}
    (hlength : row.length = length) (hcondition : SeriesStands C items (row.map finite))
    (htrue : RowStands I S length whenTrue rowTrue)
    (hfalse : RowStands I' S' length whenFalse rowFalse) :
    ∃ result, evaluateIfElse (.series items) whenTrue whenFalse = .ok (.series result)
      ∧ SeriesStands (fun n => (I n ∨ S n) ∨ (I' n ∨ S' n)) result
        ((List.zipWith columnarIfElse row (rowTrue.zip rowFalse)).map finite) := by
  obtain ⟨htrueStands, htrueLength⟩ := htrue.expand
  obtain ⟨hfalseStands, hfalseLength⟩ := hfalse.expand
  have hitems : items.length = length := by
    rw [hcondition.length_eq, List.length_map, hlength]
  have hlengths : ∀ other ∈ [whenTrue, whenFalse].filterMap PlanValue.length?,
      other = items.length := by
    intro other hother
    rw [hitems]
    obtain ⟨value, hvalue, hvalueLength⟩ := List.mem_filterMap.mp hother
    rcases List.mem_pair.mp hvalue with heq | heq
    · exact htrueLength other (heq ▸ hvalueLength)
    · exact hfalseLength other (heq ▸ hvalueLength)
  obtain ⟨result, hresult, hstands⟩ := mapM_forall₂
    (forall₂_zip hcondition (forall₂_zip htrueStands hfalseStands))
    fun p q hpq => choose_stands hC hpq.1 hpq.2.1 hpq.2.2
  refine ⟨result, ?_, ?_⟩
  · unfold evaluateIfElse
    change (do
      require (∀ other ∈ [whenTrue, whenFalse].filterMap PlanValue.length?,
        other = items.length) EvaluationError.misaligned
      return PlanValue.series (← (items.zip ((whenTrue.expand items.length).zip
        (whenFalse.expand items.length))).mapM fun row : Option (Item F) × _ × _ =>
          choose row.1 row.2.1 row.2.2)) = _
    rw [require, if_pos hlengths, ok_bind, hitems]
    simp only [hresult, ok_bind]
    rfl
  · rw [zipWith_map_finite (fun branches => (finite branches.1, finite branches.2))
      (fun condition branches => condition.bind fun condition =>
        if toRat condition ≠ 0 then branches.1 else branches.2) finite_columnarIfElse]
    have hpairs : (rowTrue.zip rowFalse).map (fun branches => (finite branches.1, finite branches.2))
        = (rowTrue.map finite).zip (rowFalse.map finite) := List.zip_map.symm
    rw [hpairs]
    exact hstands

/-! ### Nodes -/

/-- What a row evaluator holds for a subexpression and an instrument. -/
structure RowMeans (panel : Panel F) (instrument : InstrumentId) (cell : RowCell F)
    (expression : Expr F) : Prop where
  value : RowStands expression.carried expression.literalInteger panel.sessions.length cell.value
    ((meaning panel expression).cells instrument)
  window : cell.window = (meaning panel expression).window.map fun rows => rows instrument
  literal : ∀ value, expression = .number value → cell.value = .scalar (some value.item)
  /-- Only numbers are scalars. -/
  series : ∀ type, expression.Typed type → type ≠ .number → ∃ items, cell.value = .series items

variable (panel : Panel F) {instrument : InstrumentId}

lemma selectWindow_finite {x y : F} (h : finite x = finite y) (windows : ℤ × ℤ) :
    selectWindow x windows = selectWindow y windows := by
  unfold finite at h
  unfold selectWindow
  cases hx : isFinite x <;> cases hy : isFinite y <;> simp_all

lemma zipWith_selectWindow {row row' : List F} (h : row.map finite = row'.map finite)
    (windows : List (ℤ × ℤ)) :
    List.zipWith selectWindow row windows = List.zipWith selectWindow row' windows := by
  have hlength : row.length = row'.length := by simpa using congrArg List.length h
  apply List.ext_getElem
  · rw [List.length_zipWith, List.length_zipWith, hlength]
  · intro index hleft hright
    rw [List.length_zipWith] at hleft hright
    rw [List.getElem_zipWith, List.getElem_zipWith]
    apply selectWindow_finite
    have hcell := congrArg (fun cells => cells[index]?) h
    simpa [List.getElem?_map, List.getElem?_eq_getElem (show index < row.length by omega),
      List.getElem?_eq_getElem (show index < row'.length by omega)] using hcell

/-- The windows of a node read the finite cells of a condition. -/
lemma ttmNodeWindow_condition {condition condition' : Option (List F)}
    (h : condition.map (List.map finite) = condition'.map (List.map finite))
    (fields : List (String × List ℤ)) (op : PlanOp F) (windows : List (Option (List ℤ))) :
    ttmNodeWindow rowwise fields op windows condition
      = ttmNodeWindow rowwise fields op windows condition' := by
  cases condition with
  | none =>
    cases condition' with
    | none => rfl
    | some condition' => cases h
  | some condition =>
    cases condition' with
    | none => cases h
    | some condition' =>
      rw [Option.map_some, Option.map_some, Option.some.injEq] at h
      have hunselected : condition.map (fun _ => (-1 : ℤ)) = condition'.map fun _ => (-1 : ℤ) := by
        rw [List.map_const', List.map_const']
        simpa using congrArg List.length h
      cases op with
      | builtin builtin =>
        cases builtin with
        | ifElse =>
          rcases windows with _ | ⟨first, _ | ⟨left, _ | ⟨right, _ | _⟩⟩⟩ <;> try rfl
          simp only [ttmNodeWindow, rowwise, zipWith_selectWindow h, hunselected]
        | pointwise function => rcases windows with _ | ⟨window, _ | _⟩ <;> rfl
        | rank => rfl
        | temporal function => rfl
      | unary operator => cases operator <;> rcases windows with _ | ⟨window, _ | _⟩ <;> rfl
      | binary operator => rcases windows with _ | ⟨left, _ | ⟨right, _ | _⟩⟩ <;> rfl
      | _ => rfl

/-- The condition of a row evaluator has the finite cells of its meaning. -/
lemma rowCondition_ok {expression : Expr F} {values : List (RowCell F)}
    (h : List.Forall₂ (RowMeans panel instrument) values expression.arguments) :
    ∃ condition, rowCondition panel.sessions.length expression.op values = .ok condition
      ∧ condition.map (List.map finite)
        = ((conditionCells expression.op (expression.arguments.map (meaning panel))).map
          fun rows => rows instrument).map (List.map finite) := by
  cases expression with
  | ifElse condition whenTrue whenFalse =>
    cases h with
    | @cons cell _ values _ hcell _ =>
      obtain ⟨items, hitems, hstands⟩ := hcell.value.broadcast
      have hcells := cells_map_finite hstands.finite
      refine ⟨some (conditionRow items), ?_, ?_⟩
      · change (do return some (conditionRow (← cell.value.broadcast panel.sessions.length))) = _
        rw [hitems]
        rfl
      · rw [conditionRow_stands hstands]
        exact congrArg some hcells
  | number value => exact ⟨none, rfl, rfl⟩
  | field fieldId => exact ⟨none, rfl, rfl⟩
  | common identifier industryCode => exact ⟨none, rfl, rfl⟩
  | unary operator operand => exact ⟨none, rfl, rfl⟩
  | binary operator left right => exact ⟨none, rfl, rfl⟩
  | pointwise function value => exact ⟨none, rfl, rfl⟩
  | rank series => exact ⟨none, rfl, rfl⟩
  | temporal function series window => exact ⟨none, rfl, rfl⟩

lemma forall₂_map_eq {α β γ : Type} {R : α → β → Prop} {f : α → γ} {g : β → γ}
    (hR : ∀ x y, R x y → f x = g y) {xs : List α} {ys : List β} (h : List.Forall₂ R xs ys) :
    xs.map f = ys.map g := by
  induction h with
  | nil => rfl
  | cons hxy _ ih => rw [List.map_cons, List.map_cons, hR _ _ hxy, ih]

/-- Masked cells of a series. -/
lemma keepMatching_stands {items : Series (Item F)} {row : List F}
    (h : SeriesStands I items (row.map finite)) (matching : List Bool) :
    SeriesStands I (keepMatching matching items)
      ((List.zipWith maskCell row matching).map finite) := by
  unfold keepMatching
  induction row generalizing items matching with
  | nil =>
    cases h
    exact .nil
  | cons x row ih =>
    rw [List.map_cons] at h
    cases h with
    | @cons item _ items _ hcell hrest =>
      cases matching with
      | nil => exact .nil
      | cons valid matching =>
        refine .cons ?_ (ih hrest matching)
        cases valid with
        | true => exact hcell
        | false =>
          change Stands I none (finite nan)
          rw [finite_nan]
          exact .missing

/-- A node of a row evaluator, from its value. -/
lemma applyRow_node (common : List (CommonKey × List F)) {expression : Expr F}
    {values : List (RowCell F)} {rows : InstrumentId → List F}
    (h : List.Forall₂ (RowMeans panel instrument) values expression.arguments)
    (hmeaning : meaning panel expression
      = panel.node expression.op (expression.arguments.map (meaning panel)) rows)
    {value : PlanValue F}
    (hvalue : rowValue (panel.matrixInputs.row common instrument) expression.op values = .ok value)
    (hstands : RowStands expression.carried expression.literalInteger panel.sessions.length value
      (rows instrument))
    (hliteral : ∀ literal, expression = .number literal → value = .scalar (some literal.item))
    (hseries : ∀ type, expression.Typed type → type ≠ .number → ∃ items, value = .series items) :
    ∃ cell, applyRow (panel.matrixInputs.row common instrument) expression.op values = .ok cell
      ∧ RowMeans panel instrument cell expression := by
  obtain ⟨condition, hcondition, hcells⟩ := rowCondition_ok panel h
  have hwindows : values.map RowCell.window
      = ((expression.arguments.map (meaning panel)).map Meaning.window).map
        (Option.map fun rows => rows instrument) := by
    rw [List.map_map, List.map_map]
    exact forall₂_map_eq (fun cell argument hcell => hcell.window) h
  have hfields : (panel.matrixInputs.row common instrument).windows
      = panel.windowRows.map fun field => (field.1, field.2 instrument) := by
    simp [Panel.matrixInputs, MatrixInputs.row, Panel.windowRows]
  have hnode := ttmNodeWindow_image (keeps_row instrument) panel.windowRows expression.op
    ((expression.arguments.map (meaning panel)).map Meaning.window)
    (conditionCells expression.op (expression.arguments.map (meaning panel)))
  have hlength : (panel.matrixInputs.row common instrument).length = panel.sessions.length := rfl
  unfold applyRow
  rw [hlength, hcondition, ok_bind, hfields, hwindows, ttmNodeWindow_condition hcells, hnode,
    hvalue]
  unfold Panel.node at hmeaning
  rcases hwindow : ttmNodeWindow instrumentwise panel.windowRows expression.op
    ((expression.arguments.map (meaning panel)).map Meaning.window)
    (conditionCells expression.op (expression.arguments.map (meaning panel)))
    with ⟨window, _ | matching⟩
  · rw [hwindow] at hmeaning
    refine ⟨_, rfl, ?_, ?_, hliteral, hseries⟩
    · rw [hmeaning]
      exact hstands
    · rw [hmeaning]
  · rw [hwindow] at hmeaning
    obtain ⟨items, hitems, hitemsStands⟩ := hstands.broadcast
    obtain ⟨operator, hop⟩ := matching_binary (congrArg Prod.snd hwindow)
    refine ⟨⟨.series (keepMatching (matching instrument) items), window.map fun rows =>
      rows instrument⟩, ?_, ?_, ?_, ?_, fun _ _ _ => ⟨_, rfl⟩⟩
    · simp only [Option.map_some, ok_bind, hitems]
      rfl
    · rw [hmeaning]
      refine .series ?_ (keepMatching_stands hitemsStands _)
      have haligned := (meaning_aligned panel expression).cells instrument
      rw [hmeaning] at haligned
      exact haligned
    · rw [hmeaning]
    · rintro literal rfl
      cases hop

/-! ### Types of series -/

lemma unaryResultType_eq {operator : UnaryOperator} {operandType type : ValueType}
    (h : unaryResultType operator operandType = .ok type) : type = operandType := by
  unfold unaryResultType at h
  simp only [bind_ok_iff, pure_ok_iff] at h
  obtain ⟨_, _, heq⟩ := h
  exact heq.symm

lemma conditionalResultType_boolean {conditionType trueType falseType type : ValueType}
    (h : conditionalResultType conditionType trueType falseType = .ok type) :
    conditionType ≠ .number := by
  unfold conditionalResultType at h
  simp only [bind_ok_iff, require_ok_iff] at h
  obtain ⟨_, hboolean, _⟩ := h
  rintro rfl
  cases hboolean

/-- A series of floats from values that may be missing. -/
lemma finiteOrMissing_stands {series : Series F} {row : List F}
    (h : series.map (·.bind finite) = row.map finite) :
    SeriesStands I (Series.finiteOrMissing series) (row.map finite) := by
  have hfloats : SeriesStands I ((row.map finite).map (Option.map Item.float))
      (row.map finite) := by
    apply seriesStands_floats
    intro x hx
    obtain ⟨y, _, hy⟩ := List.mem_map.mp hx
    exact isFinite_of_finite hy
  have hitems : Series.finiteOrMissing series = (row.map finite).map (Option.map Item.float) := by
    rw [← h, List.map_map]
    rfl
  rw [hitems]
  exact hfloats

lemma rowUnary_series {operator : UnaryOperator} {items : Series (Item F)} {result : PlanValue F}
    (h : rowUnary operator (.series items) = .ok result) : ∃ items, result = .series items := by
  simp only [rowUnary, bind_ok_iff, pure_ok_iff] at h
  obtain ⟨items, _, rfl⟩ := h
  exact ⟨items, rfl⟩

lemma evaluatePointwise_series {function : Pointwise} {items : Series (Item F)}
    {result : PlanValue F} (h : evaluatePointwise function (.series items) = .ok result) :
    ∃ items, result = .series items := by
  simp only [evaluatePointwise, bind_ok_iff, pure_ok_iff] at h
  obtain ⟨items, _, rfl⟩ := h
  exact ⟨items, rfl⟩

/-- One node of a row evaluator, outside ranks. -/
theorem applyRow_step {common : List (CommonKey × List F)} {expression : Expr F}
    {type : ValueType} (typed : expression.Typed type) (hexact : expression.IntegersExact)
    (hrank : expression.op.isRank = false)
    (hcommon : ∀ identifier industryCode, expression.op = .common identifier industryCode →
      common.lookup (identifier, industryCode) = some (panel.market (identifier, industryCode)))
    {values : List (RowCell F)}
    (h : List.Forall₂ (RowMeans panel instrument) values expression.arguments) :
    ∃ cell, applyRow (panel.matrixInputs.row common instrument) expression.op values = .ok cell
      ∧ RowMeans panel instrument cell expression := by
  cases typed with
  | @number value hfinite =>
    have hstands : Stands (Expr.number value : Expr F).literalInteger (some value.item)
        (some value.item.toFloat) := by
      cases value with
      | int n => exact .int hfinite rfl
      | float x _ => exact .float hfinite
    refine applyRow_node panel common h rfl rfl (.scalar hstands ?_) ?_ ?_
    · rw [List.map_replicate, finite_of_isFinite hfinite]
    · intro literal heq
      cases heq
      rfl
    · intro type htyped hne
      cases htyped
      exact absurd rfl hne
  | field fieldId =>
    refine applyRow_node panel common h rfl rfl (.series (List.length_map ..) ?_)
      (fun _ heq => by cases heq) fun _ _ _ => ⟨_, rfl⟩
    apply finiteOrMissing_stands
    change List.map _ (List.map _ panel.sessions) = List.map _ (List.map _ panel.sessions)
    rw [List.map_map, List.map_map]
    apply List.map_congr_left
    intro session _
    simp only [Function.comp_apply]
    cases panel.fields fieldId session instrument with
    | none => simp
    | some x =>
      cases hx : isFinite x <;> simp [finite, hx]
  | common identifier industryCode =>
    have hlookup := hcommon identifier industryCode rfl
    have hvalue : rowValue (panel.matrixInputs.row common instrument)
        (.common identifier industryCode) values = .ok (.series (Series.finiteOrMissing
          ((panel.market (identifier, industryCode)).map some))) := by
      simp only [rowValue, MatrixInputs.row, hlookup, found, ok_bind]
      rfl
    refine applyRow_node panel common h rfl hvalue (.series (market_length panel _) ?_)
      (fun _ heq => by cases heq) fun _ _ _ => ⟨_, rfl⟩
    apply finiteOrMissing_stands
    rw [List.map_map]
    rfl
  | @unary operator operand operandType _ htyped hresult =>
    cases h with
    | @cons cell _ values _ hcell hrest =>
      cases hrest
      have hexactOperand : ∀ n, operand.carried n → Representable F n :=
        Expr.IntegersExact.carried hexact
      obtain ⟨result, hvalue, hstands⟩ := rowUnary_stands hexactOperand operator hcell.value
      refine applyRow_node panel common (.cons hcell .nil) rfl hvalue hstands
        (fun _ heq => by cases heq) ?_
      intro type' htyped' hne
      cases htyped' with
      | @unary _ _ operandType' _ htypedOperand hresult' =>
        rw [unaryResultType_eq hresult'] at hne
        obtain ⟨items, hitems⟩ := hcell.series operandType' htypedOperand hne
        rw [hitems] at hvalue
        exact rowUnary_series hvalue
  | @binary operator left right _ _ _ _ _ _ =>
    cases h with
    | @cons leftCell _ _ _ hleft hrest =>
      cases hrest with
      | @cons rightCell _ _ _ hright hrest =>
        cases hrest
        obtain ⟨items, hitems, hstands⟩ := rowBinary_stands hexact.1.carried hexact.2.carried
          operator hleft.value hright.value
        refine applyRow_node panel common (.cons hleft (.cons hright .nil)) rfl ?_ hstands
          (fun _ heq => by cases heq) fun _ _ _ => ⟨_, rfl⟩
        change (do return PlanValue.series (← rowBinary operator leftCell.value rightCell.value
          panel.sessions.length)) = _
        rw [hitems]
        rfl
  | @ifElse condition whenTrue whenFalse conditionType _ _ _ htypedCondition _ _ hresult =>
    cases h with
    | @cons conditionCell _ _ _ hcondition hrest =>
      cases hrest with
      | @cons trueCell _ _ _ htrue hrest =>
        cases hrest with
        | @cons falseCell _ _ _ hfalse hrest =>
          cases hrest
          obtain ⟨items, hitems⟩ := hcondition.series conditionType htypedCondition
            (conditionalResultType_boolean hresult)
          have hstandsCondition := hcondition.value
          rw [hitems] at hstandsCondition
          cases hstandsCondition with
          | series hlength hconditionStands =>
            obtain ⟨result, hvalue, hstands⟩ := evaluateIfElse_stands hexact.1.carried hlength
              hconditionStands htrue.value hfalse.value
            rw [← hitems] at hvalue
            refine applyRow_node panel common (.cons hcondition (.cons htrue (.cons hfalse .nil)))
              rfl hvalue (.series ?_ hstands) (fun _ heq => by cases heq) fun _ _ _ => ⟨_, rfl⟩
            · rw [List.length_zipWith, List.length_zip, hlength, htrue.value.length_eq,
                hfalse.value.length_eq, Nat.min_self, Nat.min_self]
  | @pointwise function value _ _ _ =>
    cases h with
    | @cons cell _ values _ hcell hrest =>
      cases hrest
      obtain ⟨result, hvalue, hstands⟩ := evaluatePointwise_stands hexact.1.carried function
        hcell.value
      refine applyRow_node panel common (.cons hcell .nil) rfl hvalue
        (hstands.mono (fun _ h => h) fun _ hfalse => hfalse.elim) (fun _ heq => by cases heq) ?_
      intro type' htyped' hne
      cases htyped' with
      | pointwise _ htypedValue _ =>
        obtain ⟨items, hitems⟩ := hcell.series _ htypedValue hne
        rw [hitems] at hvalue
        exact evaluatePointwise_series hvalue
  | rank _ => cases hrank
  | @temporal function series _ window htyped htype _ _ =>
    cases h with
    | @cons cell _ _ _ hcell hrest =>
      cases hrest with
      | @cons windowCell _ _ _ hwindow hrest =>
        cases hrest
        obtain ⟨items, hitems⟩ := hcell.series _ htyped (by rcases htype with rfl | rfl <;> decide)
        have hwindowValue := hwindow.literal _ rfl
        have hstandsCell := hcell.value
        rw [hitems] at hstandsCell
        cases hstandsCell with
        | series hlength hcellStands =>
          obtain ⟨result, hvalue, hstands⟩ := evaluator_temporal_stands panel.rollingSum
            hexact.1.carried hcellStands function window
          rw [← hitems] at hvalue
          have hrow : rowValue (panel.matrixInputs.row common instrument)
              (.builtin (.temporal function)) [cell, windowCell] = .ok (.series result) := by
            change (Builtin.temporal function).evaluator panel.rollingSum
              [cell.value, windowCell.value] = _
            rw [hwindowValue]
            exact hvalue
          refine applyRow_node panel common (.cons hcell (.cons hwindow .nil)) rfl hrow
            (.series ?_ ?_) (fun _ heq => by cases heq) fun _ _ _ => ⟨_, rfl⟩
          · rw [temporalRow_length, hlength]
          · rw [temporalRow_finite]
            exact hstands

/-! ### Expressions -/

/-- What the row evaluators rely on. -/
structure Expr.Served (panel : Panel F) (common : List (CommonKey × List F))
    (expression : Expr F) : Prop where
  typed : ∃ type, expression.Typed type
  exact : expression.IntegersExact
  common : ∀ identifier industryCode, .common identifier industryCode ∈ expression.ops →
    common.lookup (identifier, industryCode) = some (panel.market (identifier, industryCode))

lemma Expr.Typed.arguments {expression : Expr F} {type : ValueType}
    (typed : expression.Typed type) :
    ∀ argument ∈ expression.arguments, ∃ type, argument.Typed type := by
  cases typed with
  | number _ => exact fun _ hmem => nomatch hmem
  | field _ => exact fun _ hmem => nomatch hmem
  | common _ _ => exact fun _ hmem => nomatch hmem
  | unary typed _ => simpa [Expr.arguments] using ⟨_, typed⟩
  | binary left right _ => simpa [Expr.arguments] using ⟨⟨_, left⟩, ⟨_, right⟩⟩
  | ifElse condition whenTrue whenFalse _ =>
    simpa [Expr.arguments] using ⟨⟨_, condition⟩, ⟨_, whenTrue⟩, ⟨_, whenFalse⟩⟩
  | pointwise _ typed _ => simpa [Expr.arguments] using ⟨_, typed⟩
  | rank typed => simpa [Expr.arguments] using ⟨_, typed⟩
  | @temporal _ _ _ window typed _ _ hbounded =>
    have hlimit : 252 < integerLimit * integerLimit := by
      have hpow : ∀ n, 8 ≤ n → 256 ≤ 2 ^ n := fun n hn => Nat.pow_le_pow_right Nat.two_pos hn
      have hlarge : 256 ≤ integerLimit := hpow 511 (by decide)
      have hself := Nat.le_mul_of_pos_left integerLimit (Nat.lt_of_succ_lt one_lt_integerLimit)
      omega
    have hwindow : isFinite (ofInt window : F) = true := by
      apply isFinite_ofInt
      rw [abs_of_nonneg (Int.natCast_nonneg window)]
      exact_mod_cast lt_of_le_of_lt hbounded hlimit
    simpa [Expr.arguments] using ⟨⟨_, typed⟩, ⟨_, .number hwindow⟩⟩

lemma Expr.Served.arguments {common : List (CommonKey × List F)} {expression : Expr F}
    (h : expression.Served panel common) :
    ∀ argument ∈ expression.arguments, argument.Served panel common := by
  intro argument hargument
  obtain ⟨type, typed⟩ := h.typed
  refine ⟨typed.arguments argument hargument, h.exact.arguments argument hargument, ?_⟩
  intro identifier industryCode hop
  exact h.common identifier industryCode (Expr.ops_arguments hargument hop)

lemma keptValues_some {V : Type} (values : List V) : keptValues (values.map some) = .ok values := by
  unfold keptValues
  induction values with
  | nil => rfl
  | cons value values ih =>
    rw [List.map_cons, List.mapM_cons, ih]
    rfl

/-! ### One instrument -/

/-- The row evaluator computes the cells of an instrument. -/
theorem evaluateSeriesExecutionPlan_stands {common : List (CommonKey × List F)}
    {parsed : ParsedAlpha F} (h : parsed.expression.Served panel common)
    (hrank : ∀ op ∈ parsed.expression.ops, op.isRank = false) (instrument : InstrumentId) :
    ∃ items, evaluateSeriesExecutionPlan (buildSeriesExecutionPlan parsed)
        (panel.matrixInputs.row common instrument) = .ok items
      ∧ SeriesStands (fun n => parsed.expression.carried n) items
        (((meaning panel parsed.expression).cells instrument).map finite) := by
  have hstep : ∀ expression : Expr F, (expression.Served panel common
      ∧ ∀ op ∈ expression.ops, op.isRank = false) → ∀ values,
      List.Forall₂ (RowMeans panel instrument) values expression.arguments →
      ∃ cell, keptValues (values.map some)
          >>= applyRow (panel.matrixInputs.row common instrument) expression.op = .ok cell
        ∧ RowMeans panel instrument cell expression := by
    intro expression hP values hvalues
    obtain ⟨type, typed⟩ := hP.1.typed
    rw [keptValues_some, ok_bind]
    exact applyRow_step panel typed hP.1.exact (hP.2 _ expression.op_mem_ops)
      (fun identifier industryCode hop =>
        hP.1.common identifier industryCode (hop ▸ expression.op_mem_ops)) hvalues
  obtain ⟨cell, hcell, hmeans⟩ := evaluate_holds
    (fun op arguments => do
      applyRow (panel.matrixInputs.row common instrument) op (← keptValues arguments)) _
    (fun expression hP argument hargument => ⟨hP.1.arguments panel argument hargument,
      fun op hop => hP.2 op (Expr.ops_arguments hargument hop)⟩) hstep ⟨h, hrank⟩
  obtain ⟨slots, hslots, hroot⟩ := run_plan hcell
  obtain ⟨items, hitems, hstands⟩ := hmeans.value.broadcast
  refine ⟨items, ?_, hstands⟩
  have hvalues : ∀ fieldId ∈ (buildSeriesExecutionPlan parsed).fieldNames,
      ((panel.matrixInputs.row common instrument).values fieldId).length
        = (panel.matrixInputs.row common instrument).length := fun _ _ => List.length_map ..
  have hwindows : ∀ window ∈ (panel.matrixInputs.row common instrument).windows,
      window.2.length = (panel.matrixInputs.row common instrument).length := by
    intro window hwindow
    obtain ⟨field, _, rfl⟩ := List.mem_map.mp hwindow
    exact List.length_map ..
  have hvalidate : (panel.matrixInputs.row common instrument).validate
      (buildSeriesExecutionPlan parsed).fieldNames = .ok () := by
    unfold RowInputs.validate
    rw [require, if_pos hvalues, ok_bind, require, if_pos hwindows]
  unfold evaluateSeriesExecutionPlan
  rw [hvalidate, ok_bind]
  simp only [buildSeriesExecutionPlan, hslots, ok_bind, hroot, found]
  exact hitems

/-! ### Cross-sectional ranks -/

lemma averageRank_isFinite {position equal size : ℕ} (hequal : 0 < equal)
    (h : position + equal ≤ size + 1) (hsize : 0 < size) :
    isFinite (averageRank position (position + equal) size : F) = true := by
  have hrank := Numeric.isFinite_rank (F := F) (position + (position + equal) - 1) size hsize
    (by omega)
  unfold averageRank ofInt
  exact_mod_cast hrank

/-- The rank of one of the values is finite. -/
lemma isFinite_rankOf {values : List F} {value : F} (h : value ∈ values) :
    isFinite (rankOf values value) = true := by
  unfold rankOf
  split
  · apply Numeric.isFinite_ofRat
    have hlimit : (1 : ℚ) ≤ integerLimit * integerLimit := by
      have hone : (1 : ℚ) ≤ integerLimit := by exact_mod_cast one_lt_integerLimit.le
      exact one_le_mul_of_one_le_of_one_le hone hone
    refine lt_of_lt_of_le ?_ hlimit
    rw [abs_of_pos] <;> norm_num
  · next hlength =>
    have hequal : 0 < values.countP fun other => toRat other = toRat value :=
      List.countP_pos_iff.mpr ⟨value, h, by simp⟩
    have hpos : 0 < values.length := List.length_pos_of_mem h
    have hcounts := Ranking.countP_lt_add_countP_eq_le toRat values (toRat value)
    exact averageRank_isFinite hequal (by omega) (by omega)

/-- Ranks from position to position through runs of equal values. -/
lemma groupRanks_eq {groups : List (List (InstrumentId × F))}
    (h : Ranking.Runs (fun row : InstrumentId × F => toRat row.2) groups) (size position : ℕ) :
    groupRanks size position groups = groups.flatten.map fun row =>
      let before := groups.flatten.countP fun other => toRat other.2 < toRat row.2
      let equal := groups.flatten.countP fun other => toRat other.2 = toRat row.2
      (row.1, averageRank (position + before) (position + (before + equal)) size) := by
  induction groups generalizing position with
  | nil => rfl
  | cons group groups ih =>
    rw [groupRanks, ih h.tail, List.flatten_cons, List.map_append]
    congr 1
    · apply List.map_congr_left
      intro row hrow
      have hcounts := h.countP_head hrow
      rw [List.flatten_cons] at hcounts
      simp only [hcounts.1, hcounts.2, Nat.add_zero, Nat.zero_add]
    · apply List.map_congr_left
      intro row hrow
      have hcounts := h.countP_tail hrow
      rw [List.flatten_cons] at hcounts
      simp only [hcounts.1, hcounts.2, Nat.add_assoc]

lemma rowBefore_sorted (rows : List (InstrumentId × F)) :
    (rows.mergeSort rowBefore).Pairwise fun row later => toRat row.2 ≤ toRat later.2 := by
  have hsorted : (rows.mergeSort rowBefore).Pairwise fun row later => rowBefore row later :=
    List.pairwise_mergeSort ?_ ?_ rows
  · apply hsorted.imp
    intro row later hbefore
    simp only [rowBefore, decide_eq_true_eq] at hbefore
    rcases hbefore with hlt | ⟨heq, _⟩
    · exact hlt.le
    · exact heq.le
  · intro x y z hxy hyz
    simp only [rowBefore, decide_eq_true_eq] at hxy hyz ⊢
    rcases hxy with hxy | ⟨hxy, hxyId⟩
    · rcases hyz with hyz | ⟨hyz, _⟩
      · exact .inl (hxy.trans hyz)
      · exact .inl (hyz ▸ hxy)
    · rcases hyz with hyz | ⟨hyz, hyzId⟩
      · exact .inl (hxy ▸ hyz)
      · exact .inr ⟨hxy.trans hyz, hxyId.trans hyzId⟩
  · intro x y
    simp only [rowBefore, Bool.or_eq_true, decide_eq_true_eq]
    rcases lt_trichotomy (toRat x.2) (toRat y.2) with hlt | heq | hgt
    · exact .inl (.inl hlt)
    · rcases le_total x.1 y.1 with hle | hle
      · exact .inl (.inr ⟨heq, hle⟩)
      · exact .inr (.inr ⟨heq.symm, hle⟩)
    · exact .inr (.inl hgt)

/-- Ranking rows by groups gives every row the rank of its value. -/
lemma crossSectionRanks_eq (rows : List (InstrumentId × F)) :
    ∃ sorted : List (InstrumentId × F), sorted.Perm rows
      ∧ crossSectionRanks rows = sorted.map fun row =>
        (row.1, rankOf (rows.map Prod.snd) row.2) := by
  by_cases hlength : rows.length = 1
  · obtain ⟨row, rfl⟩ := List.length_eq_one_iff.mp hlength
    exact ⟨[row], .refl _, rfl⟩
  · have hperm := List.mergeSort_perm rows rowBefore
    refine ⟨rows.mergeSort rowBefore, hperm, ?_⟩
    have hranks : crossSectionRanks rows = groupRanks (rows.length - 1) 0
        ((rows.mergeSort rowBefore).splitBy sameValue) := by
      unfold crossSectionRanks
      split
      · exact absurd rfl hlength
      · rfl
    have hruns := Ranking.runs_splitBy (rowBefore_sorted rows)
    rw [hranks]
    change groupRanks (rows.length - 1) 0 ((rows.mergeSort rowBefore).splitBy
      fun row other => decide (toRat row.2 = toRat other.2)) = _
    rw [groupRanks_eq hruns, List.flatten_splitBy]
    apply List.map_congr_left
    intro row _
    simp only [rankOf, List.length_map, if_neg hlength, List.countP_map, hperm.countP_eq,
      Nat.zero_add]
    rfl

/-! ### All instruments -/

/-- What the matrix evaluator holds for a subexpression. -/
def MatrixMeans (panel : Panel F) (cell : MatrixCell F) (expression : Expr F) : Prop :=
  ∀ instrument ∈ panel.instruments, ∃ row, cell.at instrument = .ok row
    ∧ RowMeans panel instrument row expression

lemma stands_bind_finite {item : Option (Item F)} {x : Option F} (h : Stands I item x) :
    (item.bind fun item => finite item.toFloat) = x := by
  cases h with
  | missing => rfl
  | float hfinite => exact finite_of_isFinite hfinite
  | int hfinite _ => exact finite_of_isFinite hfinite

/-- The finite values that a session ranks. -/
lemma finiteMembers_ok {child : MatrixCell F} {expression : Expr F}
    (h : MatrixMeans panel child expression) {members : List InstrumentId}
    (hcovered : ∀ member ∈ members, member ∈ panel.instruments) (index : ℕ) :
    finiteMembers child.value panel.instruments members index panel.sessions.length
      = .ok (finiteRows id members fun member =>
        ((meaning panel expression).cells member).getD index nan) := by
  unfold finiteMembers
  rw [mapM_ok (g := fun member =>
    (member, finite (((meaning panel expression).cells member).getD index nan))), ok_bind]
  · rw [List.filterMap_map]
    rfl
  · intro member hmember
    obtain ⟨row, hrow, hmeans⟩ := h member (hcovered member hmember)
    simp only [MatrixCell.at, bind_ok_iff, pure_ok_iff] at hrow
    obtain ⟨value, hvalue, window, _, rfl⟩ := hrow
    obtain ⟨items, hitems, hstands⟩ := hmeans.value.broadcast
    have hcell := forall₂_getElem? hstands .missing index
    have hindex : ((((meaning panel expression).cells member).map finite)[index]?).join
        = finite (((meaning panel expression).cells member).getD index nan) := by
      rw [List.getElem?_map, List.getD_eq_getElem?_getD]
      cases ((meaning panel expression).cells member)[index]? with
      | none => exact finite_nan.symm
      | some x => rfl
    replace hitems : value.broadcast panel.sessions.length = .ok items := hitems
    simp only [require, if_pos (hcovered member hmember), ok_bind, hvalue, hitems,
      stands_bind_finite hcell, hindex]
    rfl

/-- The rank of an instrument, as the row of a series. -/
lemma rank_stands {members : List InstrumentId} {value : InstrumentId → F}
    {rows : List (InstrumentId × F)} (hrows : rows.Perm (finiteRows id members value))
    (instrument : InstrumentId) :
    Stands I (((rows.map fun row => (row.1,
        rankOf ((members.map value).filter isFinite) row.2)).lookup instrument).map Item.float)
      (finite (rankCell members value instrument)) := by
  have hlookup := lookup_ranks id members value instrument hrows fun _ _ heq => heq
  rw [← hlookup, id]
  cases hrank : (rows.map fun row => (row.1,
      rankOf ((members.map value).filter isFinite) row.2)).lookup instrument with
  | none =>
    rw [Option.getD_none, finite_nan]
    exact .missing
  | some rank =>
    obtain ⟨row, hrow, heq⟩ := List.mem_map.mp (lookup_mem hrank)
    have hmem : row.2 ∈ (members.map value).filter isFinite := by
      rw [← finiteRows_values id]
      exact List.mem_map_of_mem (hrows.mem_iff.mp hrow)
    have hfinite : isFinite rank = true := by
      rw [← (Prod.mk.inj heq).2]
      exact isFinite_rankOf hmem
    rw [Option.getD_some, finite_of_isFinite hfinite]
    exact .float hfinite

/-- Ranks of every instrument on every session. -/
lemma rankMatrix_ok {child : MatrixCell F} {series : Expr F} (h : MatrixMeans panel child series) :
    ∃ value, rankMatrix panel.matrixInputs child.value = .ok value
      ∧ ∀ instrument ∈ panel.instruments, ∃ items, value.at instrument = .ok (.series items)
        ∧ SeriesStands (fun _ => False) items ((panel.sessions.zipIdx.map fun day =>
          rankCell (panel.universeMembers day.1) (fun member =>
            ((meaning panel series).cells member).getD day.2 nan) instrument).map finite) := by
  set values := fun (day : Session × ℕ) member =>
    ((meaning panel series).cells member).getD day.2 nan with hvalues
  have hranks : (panel.sessions.zipIdx.mapM fun day => do
        return crossSectionRanks (← finiteMembers child.value panel.instruments
          (panel.universeMembers day.1) day.2 panel.sessions.length))
      = .ok (panel.sessions.zipIdx.map fun day => crossSectionRanks
        (finiteRows id (panel.universeMembers day.1) (values day))) := by
    apply mapM_ok
    intro day hday
    have hsession : day.1 ∈ panel.sessions := List.fst_mem_of_mem_zipIdx hday
    rw [finiteMembers_ok panel h (panel.universeCovered day.1 hsession)]
    rfl
  let items : InstrumentId → Series (Item F) := fun instrument =>
    (panel.sessions.zipIdx.map fun day => crossSectionRanks
      (finiteRows id (panel.universeMembers day.1) (values day))).map fun ranks =>
        (ranks.lookup instrument).map .float
  refine ⟨.byInstrument (panel.instruments.map fun instrument =>
    (instrument, .series (items instrument))), ?_, ?_⟩
  · unfold rankMatrix
    exact congrArg (· >>= _) hranks
  · intro instrument hinstrument
    refine ⟨items instrument, ?_, ?_⟩
    · exact found_ok_iff.mpr (List.lookup_graph _ hinstrument)
    · dsimp only [items]
      rw [List.map_map, List.map_map, SeriesStands, List.forall₂_map_left_iff,
        List.forall₂_map_right_iff, List.forall₂_same]
      intro day _
      obtain ⟨sorted, hperm, hsorted⟩ := crossSectionRanks_eq
        (finiteRows id (panel.universeMembers day.1) (values day))
      simp only [Function.comp_apply, hsorted, finiteRows_values]
      exact rank_stands hperm instrument

lemma lookup_forall₂ {α β : Type} [BEq α] [LawfulBEq α] {Q : α → β → Prop} {keys : List α}
    {rows : List (α × β)} (h : List.Forall₂ (fun key row => row.1 = key ∧ Q key row.2) keys rows)
    {key : α} (hkey : key ∈ keys) :
    ∃ value, Q key value
      ∧ ∀ (γ : Type) (f : β → γ),
        (rows.map fun row => (row.1, f row.2)).lookup key = some (f value) := by
  induction h with
  | nil => cases hkey
  | @cons first row _ _ hrow _ ih =>
    by_cases heq : key = first
    · subst heq
      refine ⟨row.2, hrow.2, fun γ f => ?_⟩
      rw [List.map_cons, List.lookup_cons, hrow.1, beq_self_eq_true]
    · obtain ⟨value, hvalue, hlookup⟩ := ih ((List.mem_cons.mp hkey).resolve_left heq)
      refine ⟨value, hvalue, fun γ f => ?_⟩
      have hne : (key == row.1) = false := by
        rw [hrow.1]
        exact beq_eq_false_iff_ne.mpr heq
      rw [List.map_cons, List.lookup_cons, hne]
      exact hlookup γ f

/-- The rows of the arguments of a node. -/
lemma matrix_arguments {cells : List (MatrixCell F)} {arguments : List (Expr F)}
    (h : List.Forall₂ (MatrixMeans panel) cells arguments)
    (hinstrument : instrument ∈ panel.instruments) :
    ∃ values, (cells.mapM fun argument => argument.at instrument) = .ok values
      ∧ List.Forall₂ (RowMeans panel instrument) values arguments := by
  induction h with
  | nil => exact ⟨[], rfl, .nil⟩
  | @cons cell argument cells arguments hcell _ ih =>
    obtain ⟨row, hrow, hmeans⟩ := hcell instrument hinstrument
    obtain ⟨values, hvalues, hrest⟩ := ih
    refine ⟨row :: values, ?_, .cons hmeans hrest⟩
    rw [List.mapM_cons, hrow, hvalues]
    rfl

/-- Outside literals, common inputs and ranks, the matrix evaluator is the row evaluator of every
instrument. -/
lemma applyMatrix_rows {common : List (CommonKey × List F)} {expression : Expr F}
    {cells : List (MatrixCell F)}
    (hcells : List.Forall₂ (MatrixMeans panel) cells expression.arguments)
    (hrow : ∀ instrument ∈ panel.instruments, ∀ values,
      List.Forall₂ (RowMeans panel instrument) values expression.arguments →
      ∃ row, applyRow (panel.matrixInputs.row common instrument) expression.op values = .ok row
        ∧ RowMeans panel instrument row expression)
    (hmatrix : applyMatrix panel.matrixInputs common expression.op cells = do
      let rows ← panel.instruments.mapM fun instrument => do
        let arguments ← cells.mapM fun argument => argument.at instrument
        return (instrument, ← applyRow (panel.matrixInputs.row common instrument) expression.op
          arguments)
      return ⟨.byInstrument (rows.map fun row => (row.1, row.2.value)),
        rows.map fun row => (row.1, row.2.window)⟩) :
    ∃ cell, applyMatrix panel.matrixInputs common expression.op cells = .ok cell
      ∧ MatrixMeans panel cell expression := by
  have hrows : ∀ instrument ∈ panel.instruments, ∃ row : InstrumentId × RowCell F, (do
        let arguments ← cells.mapM fun argument : MatrixCell F => argument.at instrument
        return (instrument, ← applyRow (panel.matrixInputs.row common instrument) expression.op
          arguments)) = .ok row
      ∧ row.1 = instrument ∧ RowMeans panel instrument row.2 expression := by
    intro instrument hinstrument
    obtain ⟨values, hvalues, hvaluesMean⟩ := matrix_arguments panel hcells hinstrument
    obtain ⟨row, happly, hrowMeans⟩ := hrow instrument hinstrument values hvaluesMean
    refine ⟨(instrument, row), ?_, rfl, hrowMeans⟩
    rw [hvalues, ok_bind, happly]
    rfl
  obtain ⟨rows, hrowsOk, hmeans⟩ := mapM_forall₂_ok hrows
  refine ⟨⟨.byInstrument (rows.map fun row => (row.1, row.2.value)),
    rows.map fun row => (row.1, row.2.window)⟩, ?_, ?_⟩
  · rw [hmatrix, hrowsOk]
    rfl
  · intro instrument hinstrument
    obtain ⟨row, hrowMeans, hlookup⟩ := lookup_forall₂
      (Q := fun instrument row => RowMeans panel instrument row expression) hmeans hinstrument
    refine ⟨row, ?_, hrowMeans⟩
    simp only [MatrixCell.at, MatrixValue.at, hlookup, found, ok_bind]
    rfl

omit [Numeric F] in
/-- A value of all instruments without a window. -/
lemma plain_at {instruments : List InstrumentId} {value : PlanValue F}
    (hinstrument : instrument ∈ instruments) :
    (⟨.plain value, instruments.map fun instrument => (instrument, none)⟩ : MatrixCell F).at
      instrument = .ok ⟨value, none⟩ := by
  have hlookup := List.lookup_graph (fun _ => (none : Option (List ℤ))) hinstrument
  simp only [MatrixCell.at, MatrixValue.at, hlookup, found]
  rfl

/-- One node of the matrix evaluator. -/
theorem applyMatrix_step {common : List (CommonKey × List F)} {expression : Expr F}
    (h : expression.Served panel common) {cells : List (MatrixCell F)}
    (hcells : List.Forall₂ (MatrixMeans panel) cells expression.arguments) :
    ∃ cell, applyMatrix panel.matrixInputs common expression.op cells = .ok cell
      ∧ MatrixMeans panel cell expression := by
  obtain ⟨type, typed⟩ := h.typed
  have hrow : expression.op.isRank = false → ∀ instrument ∈ panel.instruments, ∀ values,
      List.Forall₂ (RowMeans panel instrument) values expression.arguments →
      ∃ row, applyRow (panel.matrixInputs.row common instrument) expression.op values = .ok row
        ∧ RowMeans panel instrument row expression := by
    intro hrank instrument _ values hvalues
    exact applyRow_step panel typed h.exact hrank (fun identifier industryCode hop =>
      h.common identifier industryCode (hop ▸ expression.op_mem_ops)) hvalues
  cases expression with
  | number value =>
    refine ⟨_, rfl, ?_⟩
    intro instrument hinstrument
    obtain ⟨row, happly, hmeans⟩ := hrow rfl instrument hinstrument [] .nil
    have happly' : Except.ok (ε := EvaluationError)
        (⟨.scalar (some value.item), none⟩ : RowCell F) = .ok row := happly
    cases happly'
    exact ⟨_, plain_at hinstrument, hmeans⟩
  | common identifier industryCode =>
    have hlookup := h.common identifier industryCode (List.mem_singleton_self _)
    refine ⟨⟨.plain (.series (Series.finiteOrMissing
      ((panel.market (identifier, industryCode)).map some))), panel.matrixInputs.instruments.map
        fun instrument => (instrument, none)⟩, ?_, ?_⟩
    · simp only [Expr.op, applyMatrix, hlookup, found, ok_bind]
      rfl
    · intro instrument hinstrument
      obtain ⟨row, happly, hmeans⟩ := hrow rfl instrument hinstrument [] .nil
      have happly' : applyRow (panel.matrixInputs.row common instrument)
          (.common identifier industryCode) [] = .ok ⟨.series (Series.finiteOrMissing
            ((panel.market (identifier, industryCode)).map some)), none⟩ := by
        simp only [applyRow, rowCondition, rowValue, MatrixInputs.row, hlookup, found, ok_bind]
        rfl
      cases happly.symm.trans happly'
      exact ⟨_, plain_at hinstrument, hmeans⟩
  | rank series =>
    cases hcells with
    | @cons child _ _ _ hchild hrest =>
      cases hrest
      obtain ⟨value, hvalue, hat⟩ := rankMatrix_ok panel hchild
      refine ⟨⟨value, panel.matrixInputs.instruments.map fun instrument => (instrument, none)⟩,
        ?_, ?_⟩
      · simp only [Expr.op, applyMatrix, hvalue, ok_bind]
        rfl
      · intro instrument hinstrument
        obtain ⟨items, hitems, hstands⟩ := hat instrument hinstrument
        have hlookup := List.lookup_graph (fun _ => (none : Option (List ℤ))) hinstrument
        refine ⟨⟨.series items, none⟩, ?_, .series ?_ hstands, rfl, (fun _ heq => by cases heq),
          fun _ _ _ => ⟨_, rfl⟩⟩
        · simp only [MatrixCell.at, hitems, Panel.matrixInputs, hlookup, found, ok_bind]
          rfl
        · exact (meaning_aligned panel (.rank series)).cells instrument
  | _ => exact applyMatrix_rows panel hcells (hrow rfl) rfl

omit [Numeric F] in
lemma plan_ops (parsed : ParsedAlpha F) :
    (buildSeriesExecutionPlan parsed).nodes.map Node.op = parsed.expression.ops :=
  (append_ops parsed.expression []).trans (List.nil_append _)

/-- Common inputs are covered where an expression reads one. -/
lemma covered_of_usesCommon {parsed : ParsedAlpha F}
    (hmarket : parsed.expression.usesCommon = true → panel.MarketCovered) :
    ∀ node ∈ (buildSeriesExecutionPlan parsed).nodes, node.op.isCommon = true →
      panel.MarketCovered := by
  intro node hnode hcommon
  apply hmarket
  rw [Expr.usesCommon, ← plan_ops]
  exact List.any_eq_true.mpr ⟨node.op, List.mem_map_of_mem hnode, hcommon⟩

/-- The common inputs that the matrix evaluator serves. -/
lemma matrixInputs_commonValues {parsed : ParsedAlpha F}
    (hmarket : parsed.expression.usesCommon = true → panel.MarketCovered) :
    ∃ common, panel.matrixInputs.commonValues (buildSeriesExecutionPlan parsed).nodes = .ok common
      ∧ ∀ identifier industryCode, .common identifier industryCode ∈ parsed.expression.ops →
        common.lookup (identifier, industryCode)
          = some (panel.market (identifier, industryCode)) := by
  have hcloses : SameCloses panel fun instrument =>
      (panel.matrixInputs.values instrument closeFieldId).map fun value => value.getD nan := by
    intro instrument
    simp only [Panel.matrixInputs, Panel.row, List.map_map]
    apply List.map_congr_left
    intro session _
    simp only [Function.comp_apply]
    cases panel.fields closeFieldId session instrument with
    | none => rfl
    | some x => cases hx : isFinite x <;> simp [finite, hx, isFinite_nan]
  have haligned : AlignedRows (fun instrument =>
      (panel.matrixInputs.values instrument closeFieldId).map fun value => value.getD nan)
      panel.sessions.length := by
    intro instrument
    rw [List.length_map]
    exact List.length_map ..
  obtain ⟨common, hcommon, hlookup⟩ :=
    commonValues_ok panel (covered_of_usesCommon panel hmarket) haligned hcloses
  exact ⟨common, hcommon, fun identifier industryCode hop =>
    hlookup identifier industryCode ((plan_ops parsed).symm ▸ hop)⟩

/-- The matrix evaluator computes the cells of every instrument. -/
theorem evaluateSeriesExecutionMatrix_stands {parsed : ParsedAlpha F} {type : ValueType}
    (typed : parsed.expression.Typed type) (hexact : parsed.expression.IntegersExact)
    (hmarket : parsed.expression.usesCommon = true → panel.MarketCovered) :
    ∃ rows, evaluateSeriesExecutionMatrix (buildSeriesExecutionPlan parsed) panel.matrixInputs
        = .ok rows
      ∧ List.Forall₂ (fun instrument row => row.1 = instrument
        ∧ SeriesStands (fun n => parsed.expression.carried n) row.2
          (((meaning panel parsed.expression).cells instrument).map finite))
        panel.instruments rows := by
  have hops : (parsed.expression.append []).map Node.op = parsed.expression.ops :=
    (append_ops parsed.expression []).trans (List.nil_append _)
  obtain ⟨common, hcommon, hlookup⟩ := matrixInputs_commonValues panel hmarket
  have hserved : parsed.expression.Served panel common := ⟨⟨type, typed⟩, hexact, hlookup⟩
  have hwindows : ∀ instrument ∈ panel.matrixInputs.instruments,
      ∀ window ∈ panel.matrixInputs.windows instrument,
        window.2.length = panel.matrixInputs.sessions.length := by
    intro instrument _ window hwindow
    obtain ⟨field, _, rfl⟩ := List.mem_map.mp hwindow
    exact List.length_map ..
  unfold evaluateSeriesExecutionMatrix
  rw [hcommon, ok_bind, require, if_pos hwindows, ok_bind]
  by_cases hrank : (buildSeriesExecutionPlan parsed).nodes.any (fun node => node.op.isRank) = true
  · obtain ⟨cell, hcell, hmeans⟩ := evaluate_holds
      (fun op arguments => keptValues arguments >>= applyMatrix panel.matrixInputs common op)
      (MatrixMeans panel) (fun expression hP => Expr.Served.arguments panel hP)
      (fun expression hP cells hcells => by
        rw [keptValues_some, ok_bind]
        exact applyMatrix_step panel hP hcells) hserved
    obtain ⟨slots, hslots, hroot⟩ := run_plan hcell
    have hrun : run (fun op arguments => do
        applyMatrix panel.matrixInputs common op (← keptValues arguments))
        (buildSeriesExecutionPlan parsed).nodes = .ok slots := hslots
    replace hroot : slotValue slots (buildSeriesExecutionPlan parsed).root = some cell := hroot
    rw [if_pos hrank, hrun, ok_bind, hroot]
    apply mapM_forall₂_ok
    intro instrument hinstrument
    obtain ⟨row, hrow, hrowMeans⟩ := hmeans instrument hinstrument
    obtain ⟨items, hitems, hstands⟩ := hrowMeans.value.broadcast
    simp only [MatrixCell.at, bind_ok_iff, pure_ok_iff] at hrow
    obtain ⟨value, hvalue, _, _, rfl⟩ := hrow
    replace hitems : value.broadcast panel.matrixInputs.sessions.length = .ok items := hitems
    refine ⟨(instrument, items), ?_, rfl, hstands⟩
    rw [hvalue, ok_bind, hitems]
    rfl
  · rw [if_neg hrank]
    apply mapM_forall₂_ok
    intro instrument _
    have hnone : ∀ op ∈ parsed.expression.ops, op.isRank = false := by
      intro op hop
      obtain ⟨node, hnode, rfl⟩ := List.mem_map.mp (hops ▸ hop)
      cases hop' : node.op.isRank with
      | false => rfl
      | true => exact absurd (List.any_eq_true.mpr ⟨node, hnode, hop'⟩) hrank
    obtain ⟨items, hitems, hstands⟩ :=
      evaluateSeriesExecutionPlan_stands panel hserved hnone instrument
    refine ⟨(instrument, items), ?_, rfl, hstands⟩
    rw [hitems]
    rfl

end ThesisTrace.Alpha
