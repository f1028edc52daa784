import ThesisTrace.Alpha.BuiltinRefinement
import ThesisTrace.Alpha.Compilation
import ThesisTrace.Library.Ranking

/-!
# The columnar evaluator computes the meaning

Every node of a plan leaves the matrix of the cells of its subexpression. Sharing of identical nodes
and the release of buffers do not change the matrix of the root.
-/

namespace ThesisTrace.Alpha
open Numeric Transaction Dataflow

variable {F : Type} [Numeric F]

/-! ### Matrices -/

/-- What the columnar evaluator holds for a subexpression. -/
def columnarCell (panel : Panel F) : Expr F → ColumnarCell F
  | .number value => ⟨.scalar value.item, none⟩
  | expression =>
    ⟨.grid (panel.grid (meaning panel expression).cells),
      (meaning panel expression).window.map fun rows => panel.grid rows⟩

variable (panel : Panel F) (common : List (CommonKey × List F))

lemma grid_shaped {α : Type} {rows : InstrumentId → List α}
    (h : AlignedRows rows panel.sessions.length) :
    panel.columnarInputs.Shaped (panel.grid rows) := by
  refine ⟨List.length_map .., ?_⟩
  intro row hrow
  obtain ⟨instrument, _, rfl⟩ := List.mem_map.mp hrow
  exact h instrument

lemma grid_const {α : Type} (row : List α) :
    List.replicate panel.instruments.length row = panel.grid fun _ => row :=
  List.map_const'.symm

lemma columnarArray_grid {rows : InstrumentId → List F} {window : Option (Grid ℤ)}
    (h : AlignedRows rows panel.sessions.length) :
    columnarArray panel.columnarInputs (some ⟨.grid (panel.grid rows), window⟩)
      = .ok (panel.grid rows) := by
  simp [columnarArray, require, grid_shaped panel h, pure, Except.pure]

lemma columnarArray_cell (expression : Expr F) :
    columnarArray panel.columnarInputs (some (columnarCell panel expression))
      = .ok (panel.grid (meaning panel expression).cells) := by
  have haligned := (meaning_aligned panel expression).cells
  cases expression with
  | number value => exact congrArg Except.ok (grid_const panel _)
  | _ => exact columnarArray_grid panel haligned

lemma columnarCell_window (expression : Expr F) :
    (columnarCell panel expression).window
      = (meaning panel expression).window.map fun rows => panel.grid rows := by
  cases expression <;> rfl

/-- The buffers of the arguments of a node. -/
def columnarCells (arguments : List (Expr F)) : List (Option (ColumnarCell F)) :=
  arguments.map fun argument => some (columnarCell panel argument)

lemma columnarCondition_cells (op : PlanOp F) (arguments : List (Expr F)) :
    columnarCondition panel.columnarInputs op (columnarCells panel arguments)
      = .ok ((conditionCells op (arguments.map (meaning panel))).map fun rows =>
        panel.grid rows) := by
  cases op with
  | builtin builtin =>
    cases builtin with
    | ifElse =>
      cases arguments with
      | nil => rfl
      | cons condition arguments =>
        simp only [columnarCondition, columnarCells, List.map_cons, columnarArray_cell, ok_bind,
          conditionCells]
        rfl
    | _ => rfl
  | _ => rfl

/-- Only arithmetic masks its value. -/
lemma matching_binary {A : Type → Type} {arrays : Elementwise A} {fields : List (String × A ℤ)}
    {op : PlanOp F} {windows : List (Option (A ℤ))} {condition : Option (A F)} {matching : A Bool}
    (h : (ttmNodeWindow arrays fields op windows condition).2 = some matching) :
    ∃ operator, op = .binary operator := by
  unfold ttmNodeWindow at h
  split at h
  · cases h
  · cases h
  · cases h
  · split at h <;> cases h
  · next operator _ _ => exact ⟨operator, rfl⟩
  · cases h

/-- A node leaves the matrix and the window of its meaning. -/
lemma applyColumnar_node (op : PlanOp F) (arguments : List (Expr F))
    {value : InstrumentId → List F}
    (haligned : ∀ operator, op = .binary operator → AlignedRows value panel.sessions.length)
    (hvalue : columnarValue panel.columnarInputs common op (columnarCells panel arguments)
      = .ok (.grid (panel.grid value))) :
    applyColumnar panel.columnarInputs common op (columnarCells panel arguments)
      = .ok ⟨.grid (panel.grid (panel.node op (arguments.map (meaning panel)) value).cells),
        (panel.node op (arguments.map (meaning panel)) value).window.map fun rows =>
          panel.grid rows⟩ := by
  have hwindows : (columnarCells panel arguments).map
        (fun argument => argument.bind ColumnarCell.window)
      = ((arguments.map (meaning panel)).map Meaning.window).map
        (Option.map fun rows => panel.grid rows) := by
    simp [columnarCells, columnarCell_window]
  have hfields : panel.columnarInputs.windows
      = panel.windowRows.map fun field => (field.1, panel.grid field.2) := by
    simp [Panel.columnarInputs, Panel.windowRows]
  unfold applyColumnar
  rw [columnarCondition_cells, ok_bind]
  simp only [hwindows, hfields, hvalue, ok_bind,
    ttmNodeWindow_image (keeps_grid panel)]
  unfold Panel.node
  rcases hwindow : ttmNodeWindow instrumentwise panel.windowRows op
    ((arguments.map (meaning panel)).map Meaning.window)
    (conditionCells op (arguments.map (meaning panel))) with ⟨window, _ | matching⟩
  · rfl
  · obtain ⟨operator, hop⟩ := matching_binary (congrArg Prod.snd hwindow)
    have hrows := haligned operator hop
    have hmasked : (panel.grid fun instrument =>
          List.zipWith maskCell (value instrument) (matching instrument))
        = List.zipWith (List.zipWith maskCell) (panel.grid value) (panel.grid matching) :=
      (keeps_grid panel).zipWith maskCell rfl rfl
    simp only [Option.map_some, columnarArray_grid panel hrows, ok_bind, hmasked]
    rfl

/-! ### Cross-sectional ranks -/

/-- The finite values of the members of a session, each with a key of its member. -/
def finiteRows {κ : Type} (key : InstrumentId → κ) (members : List InstrumentId)
    (value : InstrumentId → F) : List (κ × F) :=
  members.filterMap fun member => (finite (value member)).map (key member, ·)

lemma mem_finiteRows {κ : Type} {key : InstrumentId → κ} {members : List InstrumentId}
    {value : InstrumentId → F} {row : κ × F} :
    row ∈ finiteRows key members value ↔
      ∃ member ∈ members, isFinite (value member) = true ∧ row = (key member, value member) := by
  unfold finiteRows
  simp only [List.mem_filterMap, Option.map_eq_some_iff, finite_eq_some]
  constructor
  · rintro ⟨member, hmember, x, ⟨hfinite, rfl⟩, rfl⟩
    exact ⟨member, hmember, hfinite, rfl⟩
  · rintro ⟨member, hmember, hfinite, rfl⟩
    exact ⟨member, hmember, value member, ⟨hfinite, rfl⟩, rfl⟩

lemma finiteRows_values {κ : Type} (key : InstrumentId → κ) (members : List InstrumentId)
    (value : InstrumentId → F) :
    (finiteRows key members value).map Prod.snd = (members.map value).filter isFinite := by
  unfold finiteRows
  induction members with
  | nil => rfl
  | cons member members ih =>
    rw [List.filterMap_cons, List.map_cons, List.filter_cons, ← ih]
    unfold finite
    cases isFinite (value member) <;> rfl

lemma lookup_mem {α β : Type} [BEq α] [LawfulBEq α] {rows : List (α × β)} {key : α} {value : β}
    (h : rows.lookup key = some value) : (key, value) ∈ rows := by
  obtain ⟨before, after, rfl, -⟩ := List.lookup_eq_some_iff.mp h
  exact List.mem_append_right _ List.mem_cons_self

/-- Ranking rows by their value leaves the rank of a member under its key. -/
lemma lookup_ranks {κ : Type} [DecidableEq κ] (key : InstrumentId → κ)
    (members : List InstrumentId) (value : InstrumentId → F) (instrument : InstrumentId)
    {rows : List (κ × F)} (hrows : rows.Perm (finiteRows key members value))
    (hkey : ∀ member ∈ members, key member = key instrument → member = instrument) :
    ((rows.map fun row => (row.1, rankOf ((members.map value).filter isFinite) row.2)).lookup
        (key instrument)).getD nan
      = rankCell members value instrument := by
  set rank := rankOf ((members.map value).filter isFinite) with hrank
  have hmem : ∀ y, (key instrument, y) ∈ rows.map (fun row => (row.1, rank row.2)) →
      instrument ∈ members ∧ isFinite (value instrument) = true ∧ y = rank (value instrument) := by
    intro y hy
    obtain ⟨row, hrow, heq⟩ := List.mem_map.mp hy
    obtain ⟨member, hmember, hfinite, rfl⟩ := mem_finiteRows.mp (hrows.mem_iff.mp hrow)
    obtain ⟨hmemberKey, rfl⟩ := Prod.mk.inj heq
    obtain rfl := hkey member hmember hmemberKey
    exact ⟨hmember, hfinite, rfl⟩
  unfold rankCell
  cases hlookup : (rows.map fun row => (row.1, rank row.2)).lookup (key instrument) with
  | some y =>
    obtain ⟨hmember, hfinite, rfl⟩ := hmem y (lookup_mem hlookup)
    rw [if_pos ⟨hmember, hfinite⟩]
    rfl
  | none =>
    rw [if_neg]
    · rfl
    · rintro ⟨hmember, hfinite⟩
      have hrow := hrows.mem_iff.mpr (mem_finiteRows.mpr ⟨instrument, hmember, hfinite, rfl⟩)
      have habsent := List.lookup_eq_none_iff.mp hlookup _ (List.mem_map_of_mem hrow)
      simp at habsent

/-- Ranks through the groups of distinct values are the ranks of the values. -/
lemma columnarGroupRanks_eq {values : List F} (h : values.length ≠ 1) :
    columnarGroupRanks values = values.map (rankOf values) := by
  unfold columnarGroupRanks
  apply List.map_congr_left
  intro value hvalue
  have hmem : toRat value ∈ values.map toRat := List.mem_map_of_mem hvalue
  have hlt : (uniqueValues values).idxOf (toRat value) < (uniqueValues values).length :=
    List.idxOf_lt_length_of_mem (Ranking.mem_distinct.mpr hmem)
  have hsum := Ranking.sum_counts_take_idxOf hmem
  rw [List.countP_map] at hsum
  have hcount : (values.map toRat).count (toRat value)
      = values.countP fun other => toRat other = toRat value := by
    rw [List.count, List.countP_map]
    rfl
  have hstart : (uniqueStarts values)[(uniqueValues values).idxOf (toRat value)]?
      = some (values.countP fun other => toRat other < toRat value) := by
    rw [uniqueStarts, List.getElem?_map, List.getElem?_range (by simpa [uniqueCounts] using hlt)]
    exact congrArg some hsum
  have hgroup : (uniqueCounts values)[(uniqueValues values).idxOf (toRat value)]?
      = some (values.countP fun other => toRat other = toRat value) := by
    rw [uniqueCounts, List.getElem?_map, List.getElem?_eq_getElem hlt, List.getElem_idxOf hlt,
      Option.map_some, hcount]
  rw [List.getD_eq_getElem?_getD, List.getElem?_zipWith, hstart, hgroup, rankOf, if_neg h]
  rfl

lemma columnarRankRows_eq (rows : List (ℕ × F)) :
    columnarRankRows rows = rows.map fun row => (row.1, rankOf (rows.map Prod.snd) row.2) := by
  match rows with
  | [] => rfl
  | [row] => rfl
  | first :: second :: rows =>
    rw [columnarRankRows, columnarGroupRanks_eq (by simp), List.map_map, List.zip_map']
    · rfl
    · simp

/-- The ranks of one session, under the positions of its members. -/
lemma columnarSessionRanks_eq (cells : InstrumentId → List F) {session : Session}
    (hsession : session ∈ panel.sessions) (index : ℕ) :
    columnarSessionRanks panel.columnarInputs (panel.grid cells) session index
      = (finiteRows panel.instruments.idxOf (panel.universeMembers session) fun member =>
          (cells member).getD index nan).map fun row => (row.1, rankOf
            (((panel.universeMembers session).map fun member =>
              (cells member).getD index nan).filter isFinite) row.2) := by
  have hcovered := panel.universeCovered session hsession
  have hmembers : (panel.universeMembers session).filter (· ∈ panel.instruments)
      = panel.universeMembers session := List.filter_eq_self.mpr (by simpa using hcovered)
  have hrows : ((panel.universeMembers session).map panel.instruments.idxOf).filterMap
        (fun position => (finite (((panel.grid cells).getD position []).getD index nan)).map
          (position, ·))
      = finiteRows panel.instruments.idxOf (panel.universeMembers session) fun member =>
        (cells member).getD index nan := by
    rw [List.filterMap_map, finiteRows]
    apply List.filterMap_congr
    intro member hmember
    rw [Function.comp_apply, grid_getD_idxOf panel cells (hcovered member hmember)]
  have hvalues := finiteRows_values panel.instruments.idxOf (panel.universeMembers session)
    fun member => (cells member).getD index nan
  unfold columnarSessionRanks
  change columnarRankRows ((((panel.universeMembers session).filter
    (· ∈ panel.instruments)).map panel.instruments.idxOf).filterMap _) = _
  rw [hmembers, hrows, columnarRankRows_eq, hvalues]

lemma map_range_grid {α : Type} {f : ℕ → List α} {g : InstrumentId → List α}
    (h : ∀ (position : ℕ) (hlt : position < panel.instruments.length),
      f position = g panel.instruments[position]) :
    (List.range panel.instruments.length).map f = panel.grid g := by
  apply List.ext_getElem
  · simp [Panel.grid]
  · intro position hleft hright
    rw [List.getElem_map, List.getElem_range]
    rw [List.length_map, List.length_range] at hleft
    simp only [Panel.grid, List.getElem_map, h position hleft]

/-- The matrix of ranks holds the rank of every instrument on every session. -/
theorem columnarCrossSectionRank_eq (cells : InstrumentId → List F) :
    columnarCrossSectionRank panel.columnarInputs (panel.grid cells)
      = panel.grid fun instrument => panel.sessions.zipIdx.map fun day =>
        rankCell (panel.universeMembers day.1) (fun member => (cells member).getD day.2 nan)
          instrument := by
  unfold columnarCrossSectionRank
  apply map_range_grid
  intro position hlt
  rw [List.map_map]
  apply List.map_congr_left
  intro day hday
  obtain ⟨session, index⟩ := day
  have hsession : session ∈ panel.sessions := List.fst_mem_of_mem_zipIdx hday
  have hposition : panel.instruments.idxOf panel.instruments[position] = position :=
    panel.instrumentsUnique.idxOf_getElem position hlt
  change ((columnarSessionRanks panel.columnarInputs (panel.grid cells) session index).lookup
    position).getD nan = _
  rw [columnarSessionRanks_eq panel cells hsession index]
  have hranks := lookup_ranks panel.instruments.idxOf (panel.universeMembers session)
    (fun member => (cells member).getD index nan) panel.instruments[position] (.refl _) ?_
  · rw [hposition] at hranks
    exact hranks
  · intro member hmember hkey
    exact (List.idxOf_inj (panel.universeCovered session hsession member hmember)).mp hkey

/-! ### Builtins -/

lemma grid_getD {α : Type} (rows : InstrumentId → List α) {position : ℕ}
    (h : position < panel.instruments.length) :
    (panel.grid rows).getD position [] = rows panel.instruments[position] := by
  rw [List.getD_eq_getElem?_getD, Panel.grid, List.getElem?_map, List.getElem?_eq_getElem h]
  rfl

lemma conditionRow_stands {I : ℤ → Prop} {items : Series (Item F)} {series : Series F}
    (h : SeriesStands I items series) : conditionRow items = cells series := by
  rw [← h.map_toFloat, conditionRow, cells, List.map_map]
  rfl

/-- A row of a builtin as an array of cells. -/
lemma conditionRow_broadcast {I S : ℤ → Prop} {length : ℕ} {value : PlanValue F}
    {series : Series F} (h : RowStands I S length value (cells series))
    (hfinite : ∀ x, some x ∈ series → isFinite x = true) :
    ∃ items, value.broadcast length = .ok items ∧ conditionRow items = cells series := by
  obtain ⟨items, hitems, hstands⟩ := h.broadcast
  rw [cells_map_finite hfinite] at hstands
  exact ⟨items, hitems, conditionRow_stands hstands⟩

/-- A row of an argument stands for the cells of the argument. -/
lemma projectArgument_stands {expression : Expr F} {type : ValueType}
    (typed : expression.Typed type) {position : ℕ} (h : position < panel.instruments.length) :
    RowStands (fun _ => False) (fun _ => True) panel.sessions.length
      (projectArgument position (some (columnarCell panel expression)))
      ((meaning panel expression).cells panel.instruments[position]) := by
  have haligned := (meaning_aligned panel expression).cells panel.instruments[position]
  have hgrid : ∀ rows : InstrumentId → List F,
      (rows panel.instruments[position]).length = panel.sessions.length →
      RowStands (fun _ => False) (fun _ => True) panel.sessions.length
        (.series (Series.finiteOrMissing (((panel.grid rows).getD position []).map some)))
        (rows panel.instruments[position]) := by
    intro rows hlength
    rw [grid_getD panel rows h]
    refine .series hlength ?_
    have hfloats : SeriesStands (fun _ => False)
        (((rows panel.instruments[position]).map finite).map (Option.map Item.float))
        ((rows panel.instruments[position]).map finite) := seriesStands_floats ?_
    · rw [List.map_map] at hfloats
      rw [Series.finiteOrMissing, List.map_map]
      exact hfloats
    · intro x hx
      obtain ⟨y, _, hy⟩ := List.mem_map.mp hx
      exact isFinite_of_finite hy
  cases typed with
  | @number value hfinite =>
    have hstands : Stands (fun _ => True) (some value.item) (some value.item.toFloat) := by
      cases value with
      | int n => exact .int hfinite trivial
      | float x _ => exact .float hfinite
    refine .scalar hstands ?_
    change (List.replicate panel.sessions.length value.item.toFloat).map finite = _
    rw [List.map_replicate, finite_of_isFinite hfinite]
  | _ => exact hgrid _ haligned

/-- A builtin that reads one row after the other. -/
lemma columnarBuiltin_rows (builtin : Builtin) (arguments : List (Option (ColumnarCell F)))
    (series : InstrumentId → Series F)
    (h : ∀ (position : ℕ) (hlt : position < panel.instruments.length),
      (∀ x, some x ∈ series panel.instruments[position] → isFinite x = true)
        ∧ ∃ I S value, builtin.evaluator panel.rollingSum (arguments.map
            (projectArgument position)) = .ok value
          ∧ RowStands I S panel.sessions.length value
            (cells (series panel.instruments[position]))) :
    (List.range panel.instruments.length).mapM
        (evaluateColumnarBuiltinRow panel.columnarInputs builtin arguments)
      = .ok (panel.grid fun instrument => cells (series instrument)) := by
  rw [← map_range_grid panel (f := fun position => cells ((panel.grid series).getD position []))]
  · apply mapM_ok
    intro position hposition
    have hlt := List.mem_range.mp hposition
    obtain ⟨hfinite, I, S, value, hvalue, hstands⟩ := h position hlt
    obtain ⟨items, hitems, hrow⟩ := conditionRow_broadcast hstands hfinite
    rw [grid_getD panel series hlt]
    unfold evaluateColumnarBuiltinRow
    change (do
      let result ← builtin.evaluator panel.rollingSum (arguments.map (projectArgument position))
      return conditionRow (← result.broadcast panel.sessions.length)) = _
    rw [hvalue, ok_bind, hitems, ok_bind, hrow]
    rfl
  · intro position hlt
    rw [grid_getD panel series hlt]

lemma isFinite_of_mem_pointwiseSeries {function : Pointwise} {series : Series F} {x : F}
    (h : some x ∈ pointwiseSeries function series) : isFinite x = true := by
  obtain ⟨value, _, hvalue⟩ := List.mem_map.mp h
  obtain ⟨y, _, hcell⟩ := Option.bind_eq_some_iff.mp hvalue
  cases function with
  | abs => exact isFinite_of_finite hcell
  | log =>
    simp only [pointwiseCell] at hcell
    split_ifs at hcell
    exact isFinite_of_finite hcell
  | sign =>
    cases hcell
    apply isFinite_ofInt_of_abs_le_one
    split_ifs <;> decide

/-- A pointwise builtin, row by row. -/
lemma columnarValue_pointwise (function : Pointwise) {expression : Expr F} {type : ValueType}
    (typed : expression.Typed type) :
    columnarValue panel.columnarInputs common (.builtin (.pointwise function))
        (columnarCells panel [expression])
      = .ok (.grid (panel.grid fun instrument =>
        cells (pointwiseSeries function (((meaning panel expression).cells instrument).map
          finite)))) := by
  have hrows := columnarBuiltin_rows panel (.pointwise function)
    (columnarCells panel [expression]) (fun instrument => pointwiseSeries function
      (((meaning panel expression).cells instrument).map finite)) ?_
  · change (do return ColumnarValue.grid (← (List.range panel.instruments.length).mapM _)) = _
    rw [hrows]
    rfl
  · intro position hlt
    refine ⟨fun x => isFinite_of_mem_pointwiseSeries, ?_⟩
    obtain ⟨result, hresult, hstands⟩ := evaluatePointwise_stands (fun _ hfalse => hfalse.elim)
      function (projectArgument_stands panel typed hlt)
    exact ⟨_, _, result, hresult, hstands⟩

/-- The series that a temporal builtin reads is no literal. -/
lemma columnarCell_series {expression : Expr F} {type : ValueType}
    (typed : expression.Typed type) (h : type = .numericSeries ∨ type = .commonNumericSeries) :
    columnarCell panel expression = ⟨.grid (panel.grid (meaning panel expression).cells),
      (meaning panel expression).window.map fun rows => panel.grid rows⟩ := by
  cases typed with
  | number _ => simp at h
  | _ => rfl

/-- A temporal builtin, row by row. -/
lemma columnarValue_temporal (function : Temporal) {expression : Expr F} {type : ValueType}
    (typed : expression.Typed type) (h : type = .numericSeries ∨ type = .commonNumericSeries)
    (window : ℕ) :
    columnarValue panel.columnarInputs common (.builtin (.temporal function))
        (columnarCells panel [expression, .number (.int window)])
      = .ok (.grid (panel.grid fun instrument => temporalRow panel.rollingSum function window
        ((meaning panel expression).cells instrument))) := by
  have hcell := columnarCell_series panel typed h
  by_cases hpct : function = .pctChange
  · subst hpct
    change (do
      let rows ← columnarArray panel.columnarInputs (some (columnarCell panel expression))
      return ColumnarValue.grid (rows.map (columnarPctChange (window : ℤ).toNat))) = _
    rw [columnarArray_cell, ok_bind, Int.toNat_natCast, Panel.grid, List.map_map]
    simp only [temporalRow, if_true]
    rfl
  · have hrows := columnarBuiltin_rows panel (.temporal function)
      (columnarCells panel [expression, .number (.int window)])
      (fun instrument => temporalSeries panel.rollingSum function window
        (((meaning panel expression).cells instrument).map finite)) ?_
    · have hvalue : columnarValue panel.columnarInputs common (.builtin (.temporal function))
            (columnarCells panel [expression, .number (.int window)])
          = do return ColumnarValue.grid (← (List.range panel.instruments.length).mapM
            (evaluateColumnarBuiltinRow panel.columnarInputs (.temporal function)
              (columnarCells panel [expression, .number (.int window)]))) := by
        cases function <;> first | exact absurd rfl hpct | rfl
      rw [hvalue, hrows]
      simp only [temporalRow, if_neg hpct]
      rfl
    · intro position hlt
      have hproject := projectArgument_stands panel typed hlt
      rw [hcell] at hproject
      cases hproject with
      | series hlength hstands =>
        obtain ⟨result, hresult, hresultStands⟩ := evaluator_temporal_stands panel.rollingSum
          (fun _ hfalse => hfalse.elim) hstands function window
        refine ⟨hresultStands.finite, _, fun _ => False, .series result, ?_, .of_series hresultStands ?_⟩
        · rw [columnarCells, List.map_cons, List.map_cons, hcell]
          exact hresult
        · rw [temporalSeries_length, List.length_map, hlength]

/-! ### Plans -/

/-- Evaluation along the tree gives the cells of the expression. -/
theorem evaluate_columnar {expression : Expr F} {type : ValueType}
    (typed : expression.Typed type)
    (hcommon : ∀ identifier industryCode, .common identifier industryCode ∈ expression.ops →
      common.lookup (identifier, industryCode) = some (panel.market (identifier, industryCode))) :
    expression.evaluate (applyColumnar panel.columnarInputs common)
      = .ok (columnarCell panel expression) := by
  induction typed with
  | number _ => rfl
  | field fieldId =>
    exact applyColumnar_node panel common (.field fieldId) [] (fun _ hop => by cases hop) rfl
  | common identifier industryCode =>
    refine applyColumnar_node panel common (.common identifier industryCode) []
      (fun _ hop => by cases hop) ?_
    have hlookup := hcommon identifier industryCode (List.mem_singleton_self _)
    simp only [columnarValue, hlookup, found, ok_bind]
    exact congrArg (fun rows => Except.ok (ColumnarValue.grid rows)) (grid_const panel _)
  | @unary operator operand _ _ _ _ ih =>
    rw [Expr.evaluate, ih fun i c h => hcommon i c (List.mem_append_left _ h), ok_bind]
    refine applyColumnar_node panel common (.unary operator) [operand]
      (fun _ hop => by cases hop) ?_
    simp only [columnarValue, columnarCells, List.map_cons, List.map_nil, columnarArray_cell,
      ok_bind]
    rw [Panel.grid, List.map_map]
    rfl
  | @binary operator left right _ _ _ _ _ _ ihl ihr =>
    rw [Expr.evaluate,
      ihl fun i c h => hcommon i c (List.mem_append_left _ (List.mem_append_left _ h)), ok_bind,
      ihr fun i c h => hcommon i c (List.mem_append_left _ (List.mem_append_right _ h)), ok_bind]
    have hleft := (meaning_aligned panel left).cells
    have hright := (meaning_aligned panel right).cells
    refine applyColumnar_node panel common (.binary operator) [left, right] (fun _ _ instrument => ?_) ?_
    · rw [List.length_zipWith, hleft instrument, hright instrument, Nat.min_self]
    · simp only [columnarValue, columnarCells, List.map_cons, List.map_nil, columnarArray_cell,
        ok_bind]
      exact congrArg (fun rows => Except.ok (ColumnarValue.grid rows))
        ((keeps_grid panel).zipWith (columnarBinary operator) rfl rfl).symm
  | @ifElse condition whenTrue whenFalse _ _ _ _ _ _ _ _ ihc iht ihf =>
    rw [Expr.evaluate,
      ihc fun i c h => hcommon i c (List.mem_append_left _ (List.mem_append_left _
        (List.mem_append_left _ h))), ok_bind,
      iht fun i c h => hcommon i c (List.mem_append_left _ (List.mem_append_left _
        (List.mem_append_right _ h))), ok_bind,
      ihf fun i c h => hcommon i c (List.mem_append_left _ (List.mem_append_right _ h)), ok_bind]
    refine applyColumnar_node panel common (.builtin .ifElse) [condition, whenTrue, whenFalse]
      (fun _ hop => by cases hop) ?_
    simp only [columnarValue, columnarCells, List.map_cons, List.map_nil, columnarArray_cell,
      ok_bind]
    have hbranches : (panel.grid fun instrument => List.zip
          ((meaning panel whenTrue).cells instrument) ((meaning panel whenFalse).cells instrument))
        = List.zipWith List.zip (panel.grid (meaning panel whenTrue).cells)
          (panel.grid (meaning panel whenFalse).cells) :=
      (keeps_grid panel).zipWith Prod.mk rfl rfl
    rw [← hbranches]
    exact congrArg (fun rows => Except.ok (ColumnarValue.grid rows))
      ((keeps_grid panel).zipWith columnarIfElse rfl rfl).symm
  | @pointwise function value _ typed _ ih =>
    rw [Expr.evaluate, ih fun i c h => hcommon i c (List.mem_append_left _ h), ok_bind]
    exact applyColumnar_node panel common (.builtin (.pointwise function)) [value]
      (fun _ hop => by cases hop) (columnarValue_pointwise panel common function typed)
  | @rank series _ ih =>
    rw [Expr.evaluate, ih fun i c h => hcommon i c (List.mem_append_left _ h), ok_bind]
    refine applyColumnar_node panel common (.builtin .rank) [series] (fun _ hop => by cases hop) ?_
    simp only [columnarValue, columnarCells, List.map_cons, List.map_nil, columnarArray_cell,
      ok_bind, columnarCrossSectionRank_eq]
    rfl
  | @temporal function series _ window typed htype _ _ ih =>
    rw [Expr.evaluate,
      ih fun i c h => hcommon i c (List.mem_append_left _ (List.mem_append_left _ h)), ok_bind]
    exact applyColumnar_node panel common (.builtin (.temporal function))
      [series, .number (.int window)] (fun _ hop => by cases hop)
      (columnarValue_temporal panel common function typed htype window)

/-- A plan reads a common input only where its expression does. -/
def Expr.usesCommon (expression : Expr F) : Bool := expression.ops.any PlanOp.isCommon

variable [DecidableEq F]

/-- The columnar evaluator returns the cells of the expression, and reads no released buffer. -/
theorem evaluateColumnarExecutionMatrix_eq {parsed : ParsedAlpha F} {type : ValueType}
    (typed : parsed.expression.Typed type)
    (hmarket : parsed.expression.usesCommon = true → panel.MarketCovered) :
    let plan := buildSeriesExecutionPlan parsed
    let shared := share plan.nodes
    evaluateColumnarExecutionMatrix plan panel.columnarInputs
        = .ok (panel.grid (meaning panel parsed.expression).cells)
      ∧ ∀ common, panel.columnarInputs.commonValues shared.nodes = .ok common →
        ReadsLive (applyColumnar panel.columnarInputs common)
          (shared.remapped.getD plan.root 0) shared.nodes := by
  intro plan shared
  have hops : ∀ op, op ∈ shared.nodes.map Node.op ↔ op ∈ parsed.expression.ops := by
    intro op
    have happend := append_ops parsed.expression []
    rw [List.map_nil, List.nil_append] at happend
    rw [← happend]
    exact mem_share_ops
  have hcovered : ∀ node ∈ shared.nodes, node.op.isCommon = true → panel.MarketCovered := by
    intro node hnode hcommon
    apply hmarket
    have hop := (hops node.op).mp (List.mem_map_of_mem hnode)
    exact List.any_eq_true.mpr ⟨node.op, hop, hcommon⟩
  have hcloses : AlignedRows (panel.row fun session instrument =>
      (panel.fields closeFieldId session instrument).getD nan) panel.sessions.length :=
    fun instrument => List.length_map ..
  obtain ⟨common, hcommon, hlookup⟩ := commonValues_ok panel hcovered hcloses fun _ => rfl
  replace hcommon : panel.columnarInputs.commonValues shared.nodes = .ok common := hcommon
  have hvalue := evaluate_columnar panel common typed fun identifier industryCode hop =>
    hlookup identifier industryCode ((hops _).mpr hop)
  obtain ⟨slots, hslots, hroot⟩ := run_plan hvalue
  have hwellFormed : WellFormed plan.nodes :=
    append_wellFormed parsed.expression fun _ _ hnode => nomatch hnode
  obtain ⟨sharedSlots, hsharedSlots, hshared⟩ := run_share hwellFormed hslots
  obtain ⟨⟨state, hstate, hstateRoot⟩, hlive⟩ :=
    runReleasing_root (share_wellFormed hwellFormed) hsharedSlots (shared.remapped.getD plan.root 0)
  have hlast : plan.root < plan.nodes.length := (append_last_lt parsed.expression []).2
  have hcell : slotValue state.slots (shared.remapped.getD plan.root 0)
      = some (columnarCell panel parsed.expression) := by
    rw [hstateRoot, hshared plan.root hlast]
    exact hroot
  constructor
  · have hfields : ∀ fieldId ∈ plan.fieldNames,
        panel.columnarInputs.Shaped (panel.columnarInputs.fields fieldId) := fun fieldId _ =>
      grid_shaped panel fun instrument => List.length_map ..
    have hwindows : ∀ window ∈ panel.columnarInputs.windows,
        panel.columnarInputs.Shaped window.2 := by
      intro window hwindow
      obtain ⟨field, _, rfl⟩ := List.mem_map.mp hwindow
      exact grid_shaped panel fun instrument => List.length_map ..
    unfold evaluateColumnarExecutionMatrix
    rw [require, if_pos hfields, ok_bind, require, if_pos hwindows, ok_bind]
    change (do
      let common ← panel.columnarInputs.commonValues shared.nodes
      let state ← runReleasing (applyColumnar panel.columnarInputs common)
        (shared.remapped.getD plan.root 0) shared.nodes
      columnarArray panel.columnarInputs (slotValue state.slots
        (shared.remapped.getD plan.root 0))) = _
    rw [hcommon, ok_bind, hstate, ok_bind, hcell, columnarArray_cell]
  · intro common' hcommon'
    rw [hcommon] at hcommon'
    cases hcommon'
    exact hlive

end ThesisTrace.Alpha
