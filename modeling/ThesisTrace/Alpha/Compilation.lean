import ThesisTrace.Alpha.Plan

/-!
# Plans compute their expressions

`Expr.evaluate` evaluates an expression along its tree, with the operations of a plan. Running the
plan that `append` builds leaves the same value in its last slot.
-/

namespace ThesisTrace.Alpha
open Transaction Dataflow

universe u v

variable {F : Type} {ε : Type v} {V : Type u}

def Expr.evaluate (apply : Apply (PlanOp F) ε V) : Expr F → Except ε V
  | .number value => apply (.number value) []
  | .field fieldId => apply (.field fieldId) []
  | .common identifier industryCode => apply (.common identifier industryCode) []
  | .unary operator operand => do
    let operand ← operand.evaluate apply
    apply (.unary operator) [some operand]
  | .binary operator left right => do
    let left ← left.evaluate apply
    let right ← right.evaluate apply
    apply (.binary operator) [some left, some right]
  | .ifElse condition whenTrue whenFalse => do
    let condition ← condition.evaluate apply
    let whenTrue ← whenTrue.evaluate apply
    let whenFalse ← whenFalse.evaluate apply
    apply (.builtin .ifElse) [some condition, some whenTrue, some whenFalse]
  | .pointwise function value => do
    let value ← value.evaluate apply
    apply (.builtin (.pointwise function)) [some value]
  | .rank series => do
    let series ← series.evaluate apply
    apply (.builtin .rank) [some series]
  | .temporal function series window => do
    let series ← series.evaluate apply
    let window ← apply (.number (.int window)) []
    apply (.builtin (.temporal function)) [some series, some window]

/-- The operation of the last node of an expression. -/
def Expr.op : Expr F → PlanOp F
  | .number value => .number value
  | .field fieldId => .field fieldId
  | .common identifier industryCode => .common identifier industryCode
  | .unary operator _ => .unary operator
  | .binary operator _ _ => .binary operator
  | .ifElse _ _ _ => .builtin .ifElse
  | .pointwise function _ => .builtin (.pointwise function)
  | .rank _ => .builtin .rank
  | .temporal function _ _ => .builtin (.temporal function)

/-- The inputs of the last node of an expression; a window is a literal. -/
def Expr.arguments : Expr F → List (Expr F)
  | .number _ | .field _ | .common _ _ => []
  | .unary _ operand => [operand]
  | .binary _ left right => [left, right]
  | .ifElse condition whenTrue whenFalse => [condition, whenTrue, whenFalse]
  | .pointwise _ value => [value]
  | .rank series => [series]
  | .temporal _ series window => [series, .number (.int window)]

/-- What every node establishes from its inputs holds of the value of an expression. -/
theorem evaluate_holds (apply : Apply (PlanOp F) ε V) (Holds : V → Expr F → Prop)
    {P : Expr F → Prop}
    (hP : ∀ expression, P expression → ∀ argument ∈ expression.arguments, P argument)
    (step : ∀ expression, P expression → ∀ values,
      List.Forall₂ Holds values expression.arguments →
      ∃ value, apply expression.op (values.map some) = .ok value ∧ Holds value expression)
    {expression : Expr F} (h : P expression) :
    ∃ value, expression.evaluate apply = .ok value ∧ Holds value expression := by
  induction expression with
  | number value => exact step _ h [] .nil
  | field fieldId => exact step _ h [] .nil
  | common identifier industryCode => exact step _ h [] .nil
  | unary operator operand ih =>
    obtain ⟨x, hx, hxHolds⟩ := ih (hP _ h _ (by simp [Expr.arguments]))
    rw [Expr.evaluate, hx]
    exact step _ h [x] (.cons hxHolds .nil)
  | binary operator left right ihl ihr =>
    obtain ⟨x, hx, hxHolds⟩ := ihl (hP _ h _ (by simp [Expr.arguments]))
    obtain ⟨y, hy, hyHolds⟩ := ihr (hP _ h _ (by simp [Expr.arguments]))
    rw [Expr.evaluate, hx, hy]
    exact step _ h [x, y] (.cons hxHolds (.cons hyHolds .nil))
  | ifElse condition whenTrue whenFalse ihc iht ihf =>
    obtain ⟨c, hc, hcHolds⟩ := ihc (hP _ h _ (by simp [Expr.arguments]))
    obtain ⟨x, hx, hxHolds⟩ := iht (hP _ h _ (by simp [Expr.arguments]))
    obtain ⟨y, hy, hyHolds⟩ := ihf (hP _ h _ (by simp [Expr.arguments]))
    rw [Expr.evaluate, hc, hx, hy]
    exact step _ h [c, x, y] (.cons hcHolds (.cons hxHolds (.cons hyHolds .nil)))
  | pointwise function value ih =>
    obtain ⟨x, hx, hxHolds⟩ := ih (hP _ h _ (by simp [Expr.arguments]))
    rw [Expr.evaluate, hx]
    exact step _ h [x] (.cons hxHolds .nil)
  | rank series ih =>
    obtain ⟨x, hx, hxHolds⟩ := ih (hP _ h _ (by simp [Expr.arguments]))
    rw [Expr.evaluate, hx]
    exact step _ h [x] (.cons hxHolds .nil)
  | temporal function series window ih =>
    obtain ⟨x, hx, hxHolds⟩ := ih (hP _ h _ (by simp [Expr.arguments]))
    obtain ⟨w, hw, hwHolds⟩ := step (.number (.int window))
      (hP _ h _ (by simp [Expr.arguments])) [] .nil
    have hwindow : apply (.number (.int window)) [] = .ok w := hw
    rw [Expr.evaluate, hx, ok_bind, hwindow]
    exact step _ h [x, w] (.cons hxHolds (.cons hwHolds .nil))

/-- The operations of the plan of an expression, in order. -/
def Expr.ops : Expr F → List (PlanOp F)
  | .number value => [.number value]
  | .field fieldId => [.field fieldId]
  | .common identifier industryCode => [.common identifier industryCode]
  | .unary operator operand => operand.ops ++ [.unary operator]
  | .binary operator left right => left.ops ++ right.ops ++ [.binary operator]
  | .ifElse condition whenTrue whenFalse =>
    condition.ops ++ whenTrue.ops ++ whenFalse.ops ++ [.builtin .ifElse]
  | .pointwise function value => value.ops ++ [.builtin (.pointwise function)]
  | .rank series => series.ops ++ [.builtin .rank]
  | .temporal function series window =>
    series.ops ++ [.number (.int window)] ++ [.builtin (.temporal function)]

lemma Expr.op_mem_ops (expression : Expr F) : expression.op ∈ expression.ops := by
  cases expression <;> simp [Expr.op, Expr.ops]

lemma Expr.ops_arguments {expression argument : Expr F} (h : argument ∈ expression.arguments) :
    argument.ops ⊆ expression.ops := by
  intro op hop
  cases expression with
  | number _ => cases h
  | field _ => cases h
  | common _ _ => cases h
  | _ =>
    simp only [Expr.arguments, List.mem_cons, List.not_mem_nil, or_false] at h
    simp only [Expr.ops, List.mem_append]
    rcases h with rfl | rfl | rfl | rfl
    all_goals simp_all [Expr.ops]

lemma append_ops (expression : Expr F) (nodes : List (SeriesPlanNode F)) :
    (expression.append nodes).map Node.op = nodes.map Node.op ++ expression.ops := by
  induction expression generalizing nodes with
  | number => simp [Expr.append, Expr.ops]
  | field => simp [Expr.append, Expr.ops]
  | common => simp [Expr.append, Expr.ops]
  | unary _ _ ih => simp [Expr.append, Expr.ops, ih]
  | binary _ _ _ ihl ihr => simp [Expr.append, Expr.ops, ihl, ihr]
  | ifElse _ _ _ ihc iht ihf => simp [Expr.append, Expr.ops, ihc, iht, ihf]
  | pointwise _ _ ih => simp [Expr.append, Expr.ops, ih]
  | rank _ ih => simp [Expr.append, Expr.ops, ih]
  | temporal _ _ _ ih => simp [Expr.append, Expr.ops, ih]

lemma ops_pos (expression : Expr F) : 0 < expression.ops.length := by
  cases expression <;> simp [Expr.ops]

lemma append_length (expression : Expr F) (nodes : List (SeriesPlanNode F)) :
    (expression.append nodes).length = nodes.length + expression.ops.length := by
  have hops := congrArg List.length (append_ops expression nodes)
  rwa [List.length_map, List.length_append, List.length_map] at hops

/-- The last node of an expression stands after the nodes it was appended to. -/
lemma append_last_lt (expression : Expr F) (nodes : List (SeriesPlanNode F)) :
    nodes.length ≤ (expression.append nodes).length - 1
      ∧ (expression.append nodes).length - 1 < (expression.append nodes).length := by
  have hlength := append_length expression nodes
  have hpos := ops_pos expression
  omega

lemma append_wellFormed (expression : Expr F) {nodes : List (SeriesPlanNode F)}
    (h : WellFormed nodes) : WellFormed (expression.append nodes) := by
  induction expression generalizing nodes with
  | number => exact h.concat fun _ hinput => nomatch hinput
  | field => exact h.concat fun _ hinput => nomatch hinput
  | common => exact h.concat fun _ hinput => nomatch hinput
  | unary _ operand ih =>
    apply (ih h).concat
    have hlast := append_last_lt operand nodes
    simp only [List.mem_singleton, forall_eq]
    omega
  | binary _ left right ihl ihr =>
    apply (ihr (ihl h)).concat
    have hleft := append_last_lt left nodes
    have hright := append_last_lt right (left.append nodes)
    simp only [List.mem_cons, List.not_mem_nil, or_false, forall_eq_or_imp, forall_eq]
    omega
  | ifElse condition whenTrue whenFalse ihc iht ihf =>
    apply (ihf (iht (ihc h))).concat
    have hcondition := append_last_lt condition nodes
    have htrue := append_last_lt whenTrue (condition.append nodes)
    have hfalse := append_last_lt whenFalse (whenTrue.append (condition.append nodes))
    simp only [List.mem_cons, List.not_mem_nil, or_false, forall_eq_or_imp, forall_eq]
    omega
  | pointwise _ value ih =>
    apply (ih h).concat
    have hlast := append_last_lt value nodes
    simp only [List.mem_singleton, forall_eq]
    omega
  | rank series ih =>
    apply (ih h).concat
    have hlast := append_last_lt series nodes
    simp only [List.mem_singleton, forall_eq]
    omega
  | temporal _ series window ih =>
    have hlast := append_last_lt series nodes
    apply WellFormed.concat
    · exact (ih h).concat fun _ hinput => nomatch hinput
    · simp only [List.mem_cons, List.not_mem_nil, or_false, forall_eq_or_imp, forall_eq,
        List.length_append, List.length_singleton]
      omega

/-! ### Running a plan -/

/-- Slots that continue earlier ones. -/
structure Continues (earlier slots : List (Option V)) : Prop where
  length : earlier.length ≤ slots.length
  kept : ∀ index < earlier.length, slotValue slots index = slotValue earlier index

variable {apply : Apply (PlanOp F) ε V} {nodes : List (SeriesPlanNode F)}
  {earlier slots : List (Option V)} {value : V}

lemma Continues.refl (slots : List (Option V)) : Continues slots slots :=
  ⟨Nat.le_refl _, fun _ _ => rfl⟩

lemma Continues.trans {later : List (Option V)} (h : Continues earlier slots)
    (h' : Continues slots later) : Continues earlier later := by
  refine ⟨Nat.le_trans h.length h'.length, ?_⟩
  intro index hindex
  rw [h'.kept index (Nat.lt_of_lt_of_le hindex h.length), h.kept index hindex]

/-- The run of a plan continues the slots and leaves a value in the last one. -/
structure Leaves (apply : Apply (PlanOp F) ε V) (nodes : List (SeriesPlanNode F))
    (earlier : List (Option V)) (value : V) (slots : List (Option V)) : Prop where
  run : run apply nodes = .ok slots
  last : slotValue slots (nodes.length - 1) = some value
  positive : 0 < nodes.length
  continues : Continues earlier slots

/-- The value that a plan leaves is still there in later slots. -/
lemma Leaves.read {later : List (Option V)} (h : Leaves apply nodes earlier value slots)
    (hlater : Continues slots later) : slotValue later (nodes.length - 1) = some value := by
  have hlength := run_length h.run
  have hpositive := h.positive
  rw [hlater.kept _ (by omega), h.last]

/-- One more node leaves its value. -/
lemma Leaves.concat (hrun : Dataflow.run apply nodes = .ok slots) (h : Continues earlier slots)
    {op : PlanOp F} {inputs : List ℕ} (happly : apply op (readSlots slots inputs) = .ok value) :
    Leaves apply (nodes ++ [⟨op, inputs⟩]) earlier value (slots ++ [some value]) := by
  have hslots := run_length hrun
  have hlength := h.length
  refine ⟨run_concat_ok.mpr ⟨slots, value, hrun, happly, rfl⟩, ?_, by simp, ?_, ?_⟩
  · rw [List.length_append, List.length_singleton, Nat.add_sub_cancel, ← hslots, slotValue_concat]
  · rw [List.length_append]
    omega
  · intro index hindex
    rw [slotValue_append_of_lt (by omega), h.kept index hindex]

/-- Running the plan of an expression leaves the value of the expression. -/
theorem run_append {expression : Expr F} (hvalue : expression.evaluate apply = .ok value)
    (hrun : run apply nodes = .ok slots) :
    ∃ result, Leaves apply (expression.append nodes) slots value result := by
  induction expression generalizing nodes slots value with
  | number literal => exact ⟨_, .concat hrun (.refl slots) hvalue⟩
  | field fieldId => exact ⟨_, .concat hrun (.refl slots) hvalue⟩
  | common identifier industryCode => exact ⟨_, .concat hrun (.refl slots) hvalue⟩
  | unary operator operand ih =>
    obtain ⟨x, hx, happly⟩ := bind_ok_iff.mp hvalue
    obtain ⟨result, hresult⟩ := ih hx hrun
    refine ⟨_, .concat hresult.run hresult.continues ?_⟩
    rw [readSlots, List.map_singleton, hresult.last]
    exact happly
  | binary operator left right ihl ihr =>
    obtain ⟨x, hx, hrest⟩ := bind_ok_iff.mp hvalue
    obtain ⟨y, hy, happly⟩ := bind_ok_iff.mp hrest
    obtain ⟨leftSlots, hleft⟩ := ihl hx hrun
    obtain ⟨rightSlots, hright⟩ := ihr hy hleft.run
    refine ⟨_, .concat hright.run (hleft.continues.trans hright.continues) ?_⟩
    rw [readSlots, List.map_cons, List.map_singleton, hright.last, hleft.read hright.continues]
    exact happly
  | ifElse condition whenTrue whenFalse ihc iht ihf =>
    obtain ⟨c, hc, hrest⟩ := bind_ok_iff.mp hvalue
    obtain ⟨x, hx, hrest⟩ := bind_ok_iff.mp hrest
    obtain ⟨y, hy, happly⟩ := bind_ok_iff.mp hrest
    obtain ⟨conditionSlots, hcondition⟩ := ihc hc hrun
    obtain ⟨trueSlots, htrue⟩ := iht hx hcondition.run
    obtain ⟨falseSlots, hfalse⟩ := ihf hy htrue.run
    have hbranches := htrue.continues.trans hfalse.continues
    refine ⟨_, .concat hfalse.run (hcondition.continues.trans hbranches) ?_⟩
    rw [readSlots, List.map_cons, List.map_cons, List.map_singleton, hfalse.last,
      htrue.read hfalse.continues, hcondition.read hbranches]
    exact happly
  | pointwise function operand ih =>
    obtain ⟨x, hx, happly⟩ := bind_ok_iff.mp hvalue
    obtain ⟨result, hresult⟩ := ih hx hrun
    refine ⟨_, .concat hresult.run hresult.continues ?_⟩
    rw [readSlots, List.map_singleton, hresult.last]
    exact happly
  | rank series ih =>
    obtain ⟨x, hx, happly⟩ := bind_ok_iff.mp hvalue
    obtain ⟨result, hresult⟩ := ih hx hrun
    refine ⟨_, .concat hresult.run hresult.continues ?_⟩
    rw [readSlots, List.map_singleton, hresult.last]
    exact happly
  | temporal function series window ih =>
    obtain ⟨x, hx, hrest⟩ := bind_ok_iff.mp hvalue
    obtain ⟨w, hw, happly⟩ := bind_ok_iff.mp hrest
    obtain ⟨result, hresult⟩ := ih hx hrun
    have hwindow : Leaves apply (series.append _ ++ [⟨.number (.int window), []⟩]) _ w _ :=
      .concat hresult.run (.refl result) hw
    refine ⟨_, .concat hwindow.run (hresult.continues.trans hwindow.continues) ?_⟩
    have hlast := hwindow.last
    rw [List.length_append, List.length_singleton, Nat.add_sub_cancel] at hlast
    rw [readSlots, List.map_cons, List.map_singleton, hresult.read hwindow.continues, hlast]
    exact happly

/-- The plan of an expression, run on its own. -/
theorem run_plan {expression : Expr F} (hvalue : expression.evaluate apply = .ok value) :
    ∃ slots, run apply (expression.append []) = .ok slots
      ∧ slotValue slots ((expression.append []).length - 1) = some value := by
  obtain ⟨slots, hslots⟩ := run_append hvalue (show run apply [] = .ok [] from rfl)
  exact ⟨slots, hslots.run, hslots.last⟩

end ThesisTrace.Alpha
