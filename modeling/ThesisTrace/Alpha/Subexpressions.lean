import ThesisTrace.Library.Outcomes
import ThesisTrace.Alpha.Compilation

/-!
# Plan nodes and subexpressions

The nodes of a plan stand for the subexpressions of its expression, in one order. What every node
establishes from its inputs holds of every slot that a run fills.
-/

namespace ThesisTrace.Alpha
open Transaction Dataflow

universe u v

variable {F : Type} {ε : Type v} {V : Type u}

/-- The subexpressions in the order of their plan nodes; a window is a literal of its own. -/
def Expr.subexpressions : Expr F → List (Expr F)
  | .number value => [.number value]
  | .field fieldId => [.field fieldId]
  | .common identifier industryCode => [.common identifier industryCode]
  | .unary operator operand => operand.subexpressions ++ [.unary operator operand]
  | .binary operator left right =>
    left.subexpressions ++ right.subexpressions ++ [.binary operator left right]
  | .ifElse condition whenTrue whenFalse =>
    condition.subexpressions ++ whenTrue.subexpressions ++ whenFalse.subexpressions
      ++ [.ifElse condition whenTrue whenFalse]
  | .pointwise function value => value.subexpressions ++ [.pointwise function value]
  | .rank series => series.subexpressions ++ [.rank series]
  | .temporal function series window =>
    series.subexpressions ++ [.number (.int window)] ++ [.temporal function series window]

lemma subexpressions_op (expression : Expr F) :
    expression.subexpressions.map Expr.op = expression.ops := by
  induction expression with
  | number => rfl
  | field => rfl
  | common => rfl
  | unary _ _ ih => simp [Expr.subexpressions, Expr.ops, Expr.op, ih]
  | binary _ _ _ ihl ihr => simp [Expr.subexpressions, Expr.ops, Expr.op, ihl, ihr]
  | ifElse _ _ _ ihc iht ihf => simp [Expr.subexpressions, Expr.ops, Expr.op, ihc, iht, ihf]
  | pointwise _ _ ih => simp [Expr.subexpressions, Expr.ops, Expr.op, ih]
  | rank _ ih => simp [Expr.subexpressions, Expr.ops, Expr.op, ih]
  | temporal _ _ _ ih => simp [Expr.subexpressions, Expr.ops, Expr.op, ih]

/-- An expression is the last of its subexpressions. -/
lemma subexpressions_last (expression : Expr F) :
    ∃ proper, expression.subexpressions = proper ++ [expression] := by
  cases expression with
  | number value => exact ⟨[], rfl⟩
  | field fieldId => exact ⟨[], rfl⟩
  | common identifier industryCode => exact ⟨[], rfl⟩
  | _ => exact ⟨_, rfl⟩

/-- What arguments inherit holds of every subexpression. -/
lemma subexpressions_induct {P : Expr F → Prop}
    (hP : ∀ expression, P expression → ∀ argument ∈ expression.arguments, P argument)
    {expression : Expr F} (h : P expression) : ∀ sub ∈ expression.subexpressions, P sub := by
  induction expression with
  | number _ => simpa [Expr.subexpressions] using h
  | field _ => simpa [Expr.subexpressions] using h
  | common _ _ => simpa [Expr.subexpressions] using h
  | temporal _ _ window ih =>
    have hseries := ih (hP _ h _ (by simp [Expr.arguments]))
    have hwindow := hP _ h (.number (.int window)) (by simp [Expr.arguments])
    simp only [Expr.subexpressions, List.mem_append, List.mem_singleton]
    rintro sub ((hsub | rfl) | rfl)
    · exact hseries sub hsub
    · exact hwindow
    · exact h
  | unary _ _ ih =>
    have hoperand := ih (hP _ h _ (by simp [Expr.arguments]))
    simp only [Expr.subexpressions, List.mem_append, List.mem_singleton]
    rintro sub (hsub | rfl)
    · exact hoperand sub hsub
    · exact h
  | pointwise _ _ ih =>
    have hvalue := ih (hP _ h _ (by simp [Expr.arguments]))
    simp only [Expr.subexpressions, List.mem_append, List.mem_singleton]
    rintro sub (hsub | rfl)
    · exact hvalue sub hsub
    · exact h
  | rank _ ih =>
    have hseries := ih (hP _ h _ (by simp [Expr.arguments]))
    simp only [Expr.subexpressions, List.mem_append, List.mem_singleton]
    rintro sub (hsub | rfl)
    · exact hseries sub hsub
    · exact h
  | binary _ _ _ ihl ihr =>
    have hleft := ihl (hP _ h _ (by simp [Expr.arguments]))
    have hright := ihr (hP _ h _ (by simp [Expr.arguments]))
    simp only [Expr.subexpressions, List.mem_append, List.mem_singleton]
    rintro sub ((hsub | hsub) | rfl)
    · exact hleft sub hsub
    · exact hright sub hsub
    · exact h
  | ifElse _ _ _ ihc iht ihf =>
    have hcondition := ihc (hP _ h _ (by simp [Expr.arguments]))
    have htrue := iht (hP _ h _ (by simp [Expr.arguments]))
    have hfalse := ihf (hP _ h _ (by simp [Expr.arguments]))
    simp only [Expr.subexpressions, List.mem_append, List.mem_singleton]
    rintro sub (((hsub | hsub) | hsub) | rfl)
    · exact hcondition sub hsub
    · exact htrue sub hsub
    · exact hfalse sub hsub
    · exact h

/-! ### Runs -/

/-- Nodes that stand for expressions: each reads the slots of its arguments. -/
structure StandsFor (nodes : List (SeriesPlanNode F)) (expressions : List (Expr F)) : Prop where
  length : nodes.length = expressions.length
  node : ∀ (index : ℕ) (node : SeriesPlanNode F) (expression : Expr F),
    nodes[index]? = some node → expressions[index]? = some expression →
      node.op = expression.op ∧ List.Forall₂ (fun input argument =>
        input < index ∧ expressions[input]? = some argument) node.inputs expression.arguments

lemma StandsFor.concat {nodes : List (SeriesPlanNode F)} {expressions : List (Expr F)}
    (h : StandsFor nodes expressions) {node : SeriesPlanNode F} {expression : Expr F}
    (hop : node.op = expression.op)
    (hinputs : List.Forall₂ (fun input argument => expressions[input]? = some argument)
      node.inputs expression.arguments) :
    StandsFor (nodes ++ [node]) (expressions ++ [expression]) := by
  have hgrow : ∀ {input : ℕ} {argument : Expr F}, expressions[input]? = some argument →
      (expressions ++ [expression])[input]? = some argument := by
    intro input argument hargument
    obtain ⟨hlt, _⟩ := List.getElem?_eq_some_iff.mp hargument
    rw [List.getElem?_append_left hlt, hargument]
  refine ⟨by simp [h.length], ?_⟩
  intro index node' expression' hnode hexpression
  by_cases hlt : index < nodes.length
  · rw [List.getElem?_append_left hlt] at hnode
    rw [List.getElem?_append_left (h.length ▸ hlt)] at hexpression
    obtain ⟨hop', hinputs'⟩ := h.node index node' expression' hnode hexpression
    exact ⟨hop', hinputs'.imp fun _ _ hread => ⟨hread.1, hgrow hread.2⟩⟩
  · have hindex : index = nodes.length := by
      have hbound := (List.getElem?_eq_some_iff.mp hnode).1
      rw [List.length_append, List.length_singleton] at hbound
      omega
    subst hindex
    rw [List.getElem?_concat_length] at hnode
    rw [h.length, List.getElem?_concat_length] at hexpression
    cases hnode
    cases hexpression
    refine ⟨hop, hinputs.imp fun input argument hargument => ⟨?_, hgrow hargument⟩⟩
    rw [h.length]
    exact (List.getElem?_eq_some_iff.mp hargument).1

lemma StandsFor.of_concat {nodes : List (SeriesPlanNode F)} {expressions : List (Expr F)}
    {node : SeriesPlanNode F} {expression : Expr F}
    (h : StandsFor (nodes ++ [node]) (expressions ++ [expression])) :
    StandsFor nodes expressions ∧ node.op = expression.op
      ∧ List.Forall₂ (fun input argument => expressions[input]? = some argument) node.inputs
        expression.arguments := by
  have hlength : nodes.length = expressions.length := by simpa using h.length
  have hshrink : ∀ {input index : ℕ} {argument : Expr F}, index ≤ nodes.length →
      input < index ∧ (expressions ++ [expression])[input]? = some argument →
      input < index ∧ expressions[input]? = some argument := by
    rintro input index argument hindex ⟨hlt, hargument⟩
    rw [List.getElem?_append_left (by omega)] at hargument
    exact ⟨hlt, hargument⟩
  refine ⟨⟨hlength, ?_⟩, ?_⟩
  · intro index node' expression' hnode hexpression
    have hlt := (List.getElem?_eq_some_iff.mp hnode).1
    obtain ⟨hop, hinputs⟩ := h.node index node' expression'
      (by rw [List.getElem?_append_left hlt, hnode])
      (by rw [List.getElem?_append_left (hlength ▸ hlt), hexpression])
    exact ⟨hop, hinputs.imp fun _ _ => hshrink hlt.le⟩
  · obtain ⟨hop, hinputs⟩ := h.node nodes.length node expression List.getElem?_concat_length
      (by rw [hlength, List.getElem?_concat_length])
    exact ⟨hop, hinputs.imp fun _ _ hread => (hshrink (Nat.le_refl _) hread).2⟩

/-- The expression that was appended last. -/
lemma getElem?_subexpressions {nodes : List (SeriesPlanNode F)} {expressions : List (Expr F)}
    (hlength : nodes.length = expressions.length) (expression : Expr F) :
    (expressions ++ expression.subexpressions)[(expression.append nodes).length - 1]?
      = some expression := by
  obtain ⟨proper, hlast⟩ := subexpressions_last expression
  have hops := congrArg List.length (subexpressions_op expression)
  rw [List.length_map, hlast, List.length_append, List.length_singleton] at hops
  have hindex : (expression.append nodes).length - 1 = (expressions ++ proper).length := by
    rw [append_length, List.length_append]
    omega
  rw [hlast, ← List.append_assoc, hindex, List.getElem?_concat_length]

lemma getElem?_append_some {α : Type*} {xs : List α} {index : ℕ} {x : α}
    (h : xs[index]? = some x) (ys : List α) : (xs ++ ys)[index]? = some x := by
  rw [List.getElem?_append_left (List.getElem?_eq_some_iff.mp h).1, h]

/-- The plan of an expression stands for its subexpressions. -/
theorem append_standsFor (expression : Expr F) {nodes : List (SeriesPlanNode F)}
    {expressions : List (Expr F)} (h : StandsFor nodes expressions) :
    StandsFor (expression.append nodes) (expressions ++ expression.subexpressions) := by
  induction expression generalizing nodes expressions with
  | number value => exact h.concat rfl .nil
  | field fieldId => exact h.concat rfl .nil
  | common identifier industryCode => exact h.concat rfl .nil
  | unary operator operand ih =>
    have hread := getElem?_subexpressions h.length operand
    rw [Expr.subexpressions, ← List.append_assoc]
    exact (ih h).concat rfl (.cons hread .nil)
  | pointwise function value ih =>
    have hread := getElem?_subexpressions h.length value
    rw [Expr.subexpressions, ← List.append_assoc]
    exact (ih h).concat rfl (.cons hread .nil)
  | rank series ih =>
    have hread := getElem?_subexpressions h.length series
    rw [Expr.subexpressions, ← List.append_assoc]
    exact (ih h).concat rfl (.cons hread .nil)
  | binary operator left right ihl ihr =>
    have hleft := getElem?_append_some (getElem?_subexpressions h.length left)
      right.subexpressions
    have hright := getElem?_subexpressions (ihl h).length right
    simp only [Expr.subexpressions, ← List.append_assoc]
    exact (ihr (ihl h)).concat rfl (.cons hleft (.cons hright .nil))
  | ifElse condition whenTrue whenFalse ihc iht ihf =>
    have hcondition := getElem?_append_some (getElem?_append_some
      (getElem?_subexpressions h.length condition) whenTrue.subexpressions)
      whenFalse.subexpressions
    have htrue := getElem?_append_some (getElem?_subexpressions (ihc h).length whenTrue)
      whenFalse.subexpressions
    have hfalse := getElem?_subexpressions (iht (ihc h)).length whenFalse
    simp only [Expr.subexpressions, ← List.append_assoc]
    exact (ihf (iht (ihc h))).concat rfl (.cons hcondition (.cons htrue (.cons hfalse .nil)))
  | temporal function series window ih =>
    have hseries := getElem?_append_some (getElem?_subexpressions h.length series)
      [.number (.int window)]
    have hnodes := (ih h).length
    have hwindow : ((expressions ++ series.subexpressions) ++ [.number (.int window)])[
        (series.append nodes).length]? = some (.number (.int window)) := by
      rw [hnodes, List.getElem?_concat_length]
    simp only [Expr.subexpressions, ← List.append_assoc]
    have hliteral : StandsFor (series.append nodes ++ [⟨.number (.int window), []⟩])
        ((expressions ++ series.subexpressions) ++ [.number (.int window)]) :=
      (ih h).concat rfl .nil
    exact hliteral.concat rfl (.cons hseries (.cons hwindow .nil))

theorem plan_standsFor (expression : Expr F) :
    StandsFor (expression.append []) expression.subexpressions := by
  have hnone : StandsFor ([] : List (SeriesPlanNode F)) [] := by
    refine ⟨rfl, ?_⟩
    intro index node other hnode
    cases hnode
  simpa using append_standsFor expression hnone

/-- Slots that are all filled, each with a value that its expression allows. -/
def Filled (Holds : V → Expr F → Prop) (slots : List (Option V)) (expressions : List (Expr F)) :
    Prop :=
  ∃ values, slots = values.map some ∧ List.Forall₂ Holds values expressions

lemma Filled.read {Holds : V → Expr F → Prop} {values : List V}
    {expressions : List (Expr F)} (h : List.Forall₂ Holds values expressions) {index : ℕ}
    {expression : Expr F}
    (hindex : expressions[index]? = some expression) :
    ∃ value, slotValue (values.map some) index = some value ∧ Holds value expression := by
  induction h generalizing index with
  | nil => cases hindex
  | cons hvalue _ ih =>
    cases index with
    | zero =>
      cases hindex
      exact ⟨_, rfl, hvalue⟩
    | succ index => exact ih hindex

lemma Filled.slot {Holds : V → Expr F → Prop} {slots : List (Option V)}
    {expressions : List (Expr F)} (h : Filled Holds slots expressions) {index : ℕ}
    {expression : Expr F} (hindex : expressions[index]? = some expression) :
    ∃ value, slotValue slots index = some value ∧ Holds value expression := by
  obtain ⟨values, rfl, hvalues⟩ := h
  exact Filled.read hvalues hindex

/-- The values that a node reads are those of the arguments. -/
lemma Filled.arguments {Holds : V → Expr F → Prop} {values : List V} {expressions : List (Expr F)}
    (h : List.Forall₂ Holds values expressions) {inputs : List ℕ} {arguments : List (Expr F)}
    (hinputs : List.Forall₂ (fun input argument => expressions[input]? = some argument) inputs
      arguments) :
    ∃ read, readSlots (values.map some) inputs = read.map some
      ∧ List.Forall₂ Holds read arguments := by
  induction hinputs with
  | nil => exact ⟨[], rfl, .nil⟩
  | cons hinput _ ih =>
    obtain ⟨value, hvalue, hholds⟩ := Filled.read h hinput
    obtain ⟨read, hread, hrest⟩ := ih
    refine ⟨value :: read, ?_, .cons hholds hrest⟩
    rw [readSlots, List.map_cons, hvalue, List.map_cons, ← hread]
    rfl

/-- What every node establishes from its inputs holds of every slot, unless a node fails with a
permitted error. -/
theorem run_yields {permitted : ε → Prop} {apply : Apply (PlanOp F) ε V}
    {Holds : V → Expr F → Prop} {P : Expr F → Prop}
    (step : ∀ expression, P expression → ∀ values,
      List.Forall₂ Holds values expression.arguments →
      Yields permitted (Holds · expression) (apply expression.op (values.map some)))
    {nodes : List (SeriesPlanNode F)} {expressions : List (Expr F)}
    (h : StandsFor nodes expressions) (hP : ∀ expression ∈ expressions, P expression) :
    Yields permitted (Filled Holds · expressions) (run apply nodes) := by
  induction nodes using List.reverseRecOn generalizing expressions with
  | nil =>
    have hnil : expressions = [] := List.eq_nil_of_length_eq_zero h.length.symm
    subst hnil
    exact .value ⟨[], rfl, .nil⟩
  | append_singleton nodes node ih =>
    obtain ⟨earlier, expression, rfl⟩ : ∃ earlier expression,
        expressions = earlier ++ [expression] := by
      cases expressions using List.reverseRecOn with
      | nil => simpa using h.length
      | append_singleton earlier expression => exact ⟨earlier, expression, rfl⟩
    obtain ⟨hearlier, hop, hinputs⟩ := h.of_concat
    have hrun : run apply (nodes ++ [node]) = run apply nodes >>= fun slots =>
        runNode apply slots node := by
      unfold run
      rw [List.foldlM_append]
      simp [List.foldlM_cons, List.foldlM_nil]
    rw [hrun]
    refine (ih hearlier fun other hother => hP other (List.mem_append_left _ hother)).bind ?_
    rintro slots ⟨values, rfl, hvalues⟩
    obtain ⟨read, hread, hholds⟩ := Filled.arguments hvalues hinputs
    unfold runNode
    rw [hread, hop]
    refine (step expression (hP _ (by simp)) read hholds).bind fun value hvalue => .value ?_
    refine ⟨values ++ [value], by simp, List.rel_append hvalues (.cons hvalue .nil)⟩

end ThesisTrace.Alpha
