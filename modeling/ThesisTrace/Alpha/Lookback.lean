import ThesisTrace.Alpha.EvaluatorAgreement

/-!
# Lookback soundness

A slice that starts `effectiveLookback` sessions before the first requested session, or with the
history, has the cells of the whole history from that session on. A rolling function reads the cells of its own window, a common
input reads the previous Close, and every other function reads the cells of its own session.
-/

namespace ThesisTrace.Alpha
open Numeric Transaction Dataflow SlidingWindow

variable {F : Type} [Numeric F]

/-! ### Research data -/

/-- The columns that alpha evaluation reads, by session and instrument. -/
structure ResearchData (F : Type) where
  sessions : List Session
  sessionsOrdered : sessions.Pairwise (· < ·)
  fields : String → Session → InstrumentId → Option F
  windows : List (String × (Session → InstrumentId → ℤ))
  historicalUniverseMembers : Session → List InstrumentId
  membersUnique : ∀ session, (historicalUniverseMembers session).Nodup
  /-- Whether an instrument has an EOD price row. -/
  priced : Session → InstrumentId → Bool
  industries : Session → InstrumentId → Option String

namespace ResearchData

omit [Numeric F]

/-- `_UniverseMembers`: the members with an EOD price row. -/
def universeMembers (data : ResearchData F) (session : Session) : List InstrumentId :=
  (data.historicalUniverseMembers session).filter (data.priced session)

/-- `slice_sessions(calendar[start:last])`. -/
def sliceSessions (data : ResearchData F) (start last : ℕ) : ResearchData F :=
  { data with
    sessions := (data.sessions.drop start).take (last - start)
    sessionsOrdered := (data.sessionsOrdered.drop).take }

def inputMembers (data : ResearchData F) (plan : SeriesExecutionPlan F) :
    Session → List InstrumentId :=
  if plan.nodes.any (fun node => node.op.isCommon) then data.historicalUniverseMembers
  else data.universeMembers

/-- The instruments of `_evaluate_columnar_alpha`. -/
def instruments (data : ResearchData F) (plan : SeriesExecutionPlan F) : List InstrumentId :=
  (data.sessions.flatMap (data.inputMembers plan)).dedup.mergeSort

variable {data : ResearchData F} {plan : SeriesExecutionPlan F} {session : Session}
  {member : InstrumentId}

lemma mem_instruments (hsession : session ∈ data.sessions)
    (hmember : member ∈ data.inputMembers plan session) : member ∈ data.instruments plan := by
  rw [instruments, List.mem_mergeSort, List.mem_dedup, List.mem_flatMap]
  exact ⟨session, hsession, hmember⟩

lemma universeMembers_mem_instruments (hsession : session ∈ data.sessions)
    (hmember : member ∈ data.universeMembers session) : member ∈ data.instruments plan := by
  apply mem_instruments hsession
  unfold inputMembers
  split
  · exact List.mem_of_mem_filter hmember
  · exact hmember

lemma instruments_nodup (data : ResearchData F) (plan : SeriesExecutionPlan F) :
    (data.instruments plan).Nodup :=
  (List.mergeSort_perm _ _).nodup_iff.mpr (List.nodup_dedup _)

end ResearchData

/-- The inputs of `evaluate_columnar_execution_matrix` for some research data, summed exactly. -/
def ResearchData.panel (data : ResearchData F) (plan : SeriesExecutionPlan F) : Panel F where
  sessions := data.sessions
  sessionsOrdered := data.sessionsOrdered
  instruments := data.instruments plan
  instrumentsUnique := data.instruments_nodup plan
  fields := data.fields
  windows := data.windows
  universeMembers := data.universeMembers
  universeCovered _ hsession _ hmember := data.universeMembers_mem_instruments hsession hmember
  historicalUniverseMembers := data.historicalUniverseMembers
  industries := data.industries
  rollingSum := exactSum

/-! ### Slices -/

/-- A panel over a slice of the sessions of another one. -/
structure Panel.SliceOf (slice full : Panel F) (k : ℕ) : Prop where
  sessions : AgreeFrom 0 k full.sessions slice.sessions
  fields : slice.fields = full.fields
  windows : slice.windows = full.windows
  universeMembers : slice.universeMembers = full.universeMembers
  historicalUniverseMembers : slice.historicalUniverseMembers = full.historicalUniverseMembers
  industries : slice.industries = full.industries
  exact : slice.rollingSum = exactSum ∧ full.rollingSum = exactSum

def AgreeRows {α : Type} (L k : ℕ) (full slice : InstrumentId → List α) : Prop :=
  ∀ instrument, AgreeFrom L k (full instrument) (slice instrument)

/-- Both meanings agree from cell `L` of the slice on. -/
structure Meaning.AgreesFrom (L k : ℕ) (full slice : Meaning F) : Prop where
  cells : AgreeRows L k full.cells slice.cells
  window : Option.Rel (AgreeRows L k) full.window slice.window

lemma AgreeRows.mono {α : Type} {L L' k : ℕ} {full slice : InstrumentId → List α}
    (h : AgreeRows L k full slice) (hle : L ≤ L') : AgreeRows L' k full slice :=
  fun instrument => (h instrument).mono hle

lemma option_rel_mono {α β : Type} {R S : α → β → Prop} (h : ∀ x y, R x y → S x y)
    {x : Option α} {y : Option β} (hxy : Option.Rel R x y) : Option.Rel S x y := by
  cases hxy with
  | none => exact .none
  | some hcell => exact .some (h _ _ hcell)

omit [Numeric F] in
lemma Meaning.AgreesFrom.mono {L L' k : ℕ} {full slice : Meaning F}
    (h : full.AgreesFrom L k slice) (hle : L ≤ L') : full.AgreesFrom L' k slice :=
  ⟨h.cells.mono hle, option_rel_mono (fun _ _ hrows => hrows.mono hle) h.window⟩

lemma keeps_agree (L k : ℕ) :
    instrumentwise.Keeps instrumentwise fun {_} rows rows' => AgreeRows L k rows rows' := by
  constructor
  · intro α β f rows rows' h instrument
    exact (h instrument).map f
  · intro α β γ f left left' right right' hleft hright instrument
    have hrow := (hleft instrument).zipWith (hright instrument) f
    rwa [Nat.max_self] at hrow

section Slice

variable {full slice : Panel F} {k L : ℕ} (h : slice.SliceOf full k)
include h

lemma row_agree {α : Type} (cell : Session → InstrumentId → α) :
    AgreeRows 0 k (full.row cell) (slice.row cell) :=
  fun _ => h.sessions.map _

/-- A node agrees where its value and its arguments do. -/
lemma node_agrees (op : PlanOp F) {arguments arguments' : List (Meaning F)}
    (harguments : List.Forall₂ (fun argument argument' => argument.AgreesFrom L k argument')
      arguments arguments')
    {value value' : InstrumentId → List F} (hvalue : AgreeRows L k value value') :
    (full.node op arguments value).AgreesFrom L k (slice.node op arguments' value') := by
  have hfields : List.Forall₂ (fun field field' : String × (InstrumentId → List ℤ) =>
      field.1 = field'.1 ∧ AgreeRows L k field.2 field'.2) full.windowRows slice.windowRows := by
    unfold Panel.windowRows
    rw [h.windows, List.forall₂_map_left_iff, List.forall₂_map_right_iff, List.forall₂_same]
    exact fun window _ => ⟨rfl, (row_agree h window.2).mono (Nat.zero_le L)⟩
  have hwindows : List.Forall₂ (Option.Rel (AgreeRows L k)) (arguments.map Meaning.window)
      (arguments'.map Meaning.window) := by
    rw [List.forall₂_map_left_iff, List.forall₂_map_right_iff]
    exact harguments.imp fun _ _ hargument => hargument.window
  have hcondition : Option.Rel (AgreeRows L k) (conditionCells op arguments)
      (conditionCells op arguments') := by
    cases op with
    | builtin builtin =>
      cases builtin with
      | ifElse =>
        cases harguments with
        | nil => exact .none
        | cons hargument _ => exact .some hargument.cells
      | _ => exact .none
    | _ => exact .none
  obtain ⟨hwindow, hmatching⟩ :=
    ttmNodeWindow_rel (keeps_agree L k) hfields op hwindows hcondition
  unfold Panel.node
  generalize ttmNodeWindow instrumentwise full.windowRows op (arguments.map Meaning.window)
      (conditionCells op arguments) = node,
    ttmNodeWindow instrumentwise slice.windowRows op (arguments'.map Meaning.window)
      (conditionCells op arguments') = node' at hwindow hmatching ⊢
  obtain ⟨window, matching⟩ := node
  obtain ⟨window', matching'⟩ := node'
  cases hmatching with
  | none => exact ⟨hvalue, hwindow⟩
  | some hrows => exact ⟨(keeps_agree L k).zipWith maskCell hvalue hrows, hwindow⟩

lemma literal_agrees (value : Literal F) :
    (full.literal value).AgreesFrom L k (slice.literal value) :=
  node_agrees h _ .nil fun _ => (AgreeFrom.replicate h.sessions.length _).mono (Nat.zero_le L)

end Slice

/-! ### Builtins on slices -/

section Cells

variable {L k : ℕ}

/-- A return reads the Closes of its day and of the day before. -/
lemma memberReturn_agrees {full slice : List F} (h : AgreeFrom 0 k full slice) {day : ℕ}
    (hday : k = 0 ∨ 1 ≤ day) (hlt : day < slice.length) :
    memberReturn day slice = memberReturn (k + day) full := by
  have hcurrent := h.getD nan (.inr (Nat.zero_le day)) hlt
  have hprevious := h.getD nan (.inr (Nat.zero_le (day - 1))) (Nat.lt_of_le_of_lt (Nat.sub_le ..) hlt)
  have hprior : k + (day - 1) = k + day - 1 := by omega
  have hfirst : day ≠ 0 ↔ k + day ≠ 0 := by omega
  rw [hprior] at hprevious
  unfold memberReturn
  simp only [hcurrent, hprevious, hfirst]

lemma lag_agrees {α : Type} {full slice : Series α} (h : AgreeFrom L k full slice) (w : ℕ) :
    AgreeFrom (L + w) k (lag w full) (lag w slice) := by
  refine ⟨by rw [lag_length, lag_length]; exact h.length, ?_⟩
  intro index hindex hlt
  rw [lag_length] at hlt
  have hlength := h.length
  have hmissing : index < w ↔ k + index < w := by omega
  unfold lag
  rw [List.getElem?_map, List.getElem?_map, List.getElem?_range hlt,
    List.getElem?_range (by omega), Option.map_some, Option.map_some]
  simp only [← hmissing]
  by_cases hw : index < w
  · rw [if_pos hw, if_pos hw]
  · rw [if_neg hw, if_neg hw, h.cell (index - w) (by omega) (by omega),
      Nat.add_sub_assoc (Nat.le_of_not_lt hw)]

lemma columnarPctChange_agrees {full slice : List F} (h : AgreeFrom L k full slice) (w : ℕ) :
    AgreeFrom (L + w) k (columnarPctChange w full) (columnarPctChange w slice) := by
  have hlength := h.length
  refine ⟨by rw [columnarPctChange_length, columnarPctChange_length]; exact hlength, ?_⟩
  intro index hindex hlt
  rw [columnarPctChange_length] at hlt
  have hmissing : index < w ↔ k + index < w := by omega
  rw [List.getElem?_eq_getElem (by rw [columnarPctChange_length]; omega),
    List.getElem?_eq_getElem (by rw [columnarPctChange_length]; omega),
    columnarPctChange_getElem hlt, columnarPctChange_getElem (by omega)]
  simp only [← hmissing]
  by_cases hw : index < w
  · rw [if_pos hw, if_pos hw]
  · have hcurrent := h.cell index (by omega) hlt
    have hprior := h.cell (index - w) (by omega) (by omega)
    rw [List.getElem?_eq_getElem (by omega), List.getElem?_eq_getElem (by omega),
      Option.some.injEq] at hcurrent hprior
    rw [if_neg hw, if_neg hw, hcurrent, hprior]
    simp only [Nat.add_sub_assoc (Nat.le_of_not_lt hw)]

/-- A temporal builtin reads its lookback of cells. -/
lemma temporalSeries_agrees {full slice : Series F} (h : AgreeFrom L k full slice)
    (hfull : ∀ x, some x ∈ full → isFinite x = true)
    (hslice : ∀ x, some x ∈ slice → isFinite x = true) (function : Temporal) {w : ℕ} (hw : 0 < w) :
    AgreeFrom (function.lookbackRule.effectiveLookback L (some w)) k
      (temporalSeries exactSum function w full) (temporalSeries exactSum function w slice) := by
  have hlag := lag_agrees h w
  have hmax : max L (L + w) = L + w := by omega
  cases function with
  | lag => exact hlag
  | delta =>
    have hdelta := h.zipWith hlag deltaCell
    rwa [hmax] at hdelta
  | pctChange =>
    have hchange := h.zipWith hlag pctChangeCell
    rwa [hmax] at hchange
  | tsMean =>
    simp only [temporalSeries]
    rw [rollingTotal_eq_windowed w w hfull, rollingTotal_eq_windowed w w hslice]
    exact h.windowed hw _
  | tsSum =>
    simp only [temporalSeries]
    rw [rollingTotal_eq_windowed w 1 hfull, rollingTotal_eq_windowed w 1 hslice]
    exact h.windowed hw _
  | tsStd =>
    simp only [temporalSeries, populationStd_eq_windowed]
    exact (h.map _).windowed hw _
  | tsMin =>
    simp only [temporalSeries, rollingExtreme_eq_windowed]
    exact h.windowed hw _
  | tsMax =>
    simp only [temporalSeries, rollingExtreme_eq_windowed]
    exact h.windowed hw _

lemma temporalRow_agrees {full slice : List F} (h : AgreeFrom L k full slice)
    (function : Temporal) {w : ℕ} (hw : 0 < w) :
    AgreeFrom (function.lookbackRule.effectiveLookback L (some w)) k
      (temporalRow exactSum function w full) (temporalRow exactSum function w slice) := by
  have hfinite : ∀ row : List F, ∀ x, some x ∈ row.map finite → isFinite x = true := by
    intro row x hx
    obtain ⟨y, _, hy⟩ := List.mem_map.mp hx
    exact isFinite_of_finite hy
  unfold temporalRow
  split
  · next hfunction =>
    subst hfunction
    exact columnarPctChange_agrees h w
  · exact (temporalSeries_agrees (h.map finite) (hfinite full) (hfinite slice) function hw).map _

end Cells

/-! ### Expressions on slices -/

section Expression

variable {full slice : Panel F} {k : ℕ} (h : slice.SliceOf full k)
include h

lemma marketDay_agrees (industryCode : Option String) (session : Session) {day : ℕ}
    (hday : k = 0 ∨ 1 ≤ day) (hlt : day < slice.sessions.length) :
    slice.marketDay industryCode session day = full.marketDay industryCode session (k + day) := by
  have hrow := row_agree h fun session instrument =>
    (full.fields closeFieldId session instrument).getD nan
  have hreturn : ∀ instrument, memberReturn day (slice.row (fun session instrument =>
        (full.fields closeFieldId session instrument).getD nan) instrument)
      = memberReturn (k + day) (full.row (fun session instrument =>
        (full.fields closeFieldId session instrument).getD nan) instrument) := by
    intro instrument
    apply memberReturn_agrees (hrow instrument) hday
    rwa [Panel.row, List.length_map]
  unfold Panel.marketDay Alpha.marketDay
  simp only [h.fields, h.historicalUniverseMembers, h.industries, List.map_map, List.length_map,
    Function.comp_def, hreturn]

/-- A common input reads the Closes of the day before. -/
lemma market_agrees (key : CommonKey) : AgreeFrom 1 k (full.market key) (slice.market key) := by
  have hdays : AgreeFrom 1 k
      (full.sessions.zipIdx.map fun day => full.marketDay key.2 day.1 day.2)
      (slice.sessions.zipIdx.map fun day => slice.marketDay key.2 day.1 day.2) := by
    apply h.sessions.map_zipIdx
    intro day session hday hsession
    exact marketDay_agrees h key.2 session hday (List.getElem?_eq_some_iff.mp hsession).1
  unfold Panel.market
  cases key.1.metric with
  | equalWeightReturn => exact hdays.map _
  | advancingFraction => exact hdays.map _

/-- A rank reads the cells of its session. -/
lemma rank_agrees {L : ℕ} {cells cells' : InstrumentId → List F} (hcells : AgreeRows L k cells cells')
    (haligned : AlignedRows cells' slice.sessions.length) :
    AgreeRows L k
      (fun instrument => full.sessions.zipIdx.map fun session =>
        rankCell (full.universeMembers session.1)
          (fun member => (cells member).getD session.2 nan) instrument)
      (fun instrument => slice.sessions.zipIdx.map fun session =>
        rankCell (slice.universeMembers session.1)
          (fun member => (cells' member).getD session.2 nan) instrument) := by
  intro instrument
  apply h.sessions.map_zipIdx
  intro index session hindex hsession
  have hlt := (List.getElem?_eq_some_iff.mp hsession).1
  have hvalues : (fun member => (cells' member).getD index nan)
      = fun member => (cells member).getD (k + index) nan := by
    funext member
    apply (hcells member).getD nan hindex
    rwa [haligned member]
  rw [h.universeMembers, hvalues]

/-- Every subexpression agrees from its lookback on. -/
theorem meaning_agrees {expression : Expr F} {type : ValueType} (typed : expression.Typed type) :
    (meaning full expression).AgreesFrom expression.effectiveLookback k
      (meaning slice expression) := by
  induction typed with
  | number _ => exact literal_agrees h _
  | field fieldId =>
    rw [meaning, meaning, h.fields]
    exact node_agrees h _ .nil (row_agree h _)
  | common input industryCode =>
    rw [meaning, meaning]
    exact node_agrees h _ .nil fun _ => market_agrees h _
  | unary _ _ ih =>
    rw [meaning, meaning]
    exact node_agrees h _ (.cons ih .nil) fun instrument => (ih.cells instrument).map _
  | binary _ _ _ ihl ihr =>
    rw [meaning, meaning]
    refine node_agrees h _ (.cons (ihl.mono (Nat.le_max_left ..))
      (.cons (ihr.mono (Nat.le_max_right ..)) .nil)) ?_
    exact fun instrument => (ihl.cells instrument).zipWith (ihr.cells instrument) _
  | ifElse _ _ _ _ ihc iht ihf =>
    rw [meaning, meaning]
    refine node_agrees h _ (.cons (ihc.mono (Nat.le_max_left ..))
      (.cons ((iht.mono (Nat.le_max_left ..)).mono (Nat.le_max_right ..))
        (.cons ((ihf.mono (Nat.le_max_right ..)).mono (Nat.le_max_right ..)) .nil))) ?_
    intro instrument
    exact (ihc.cells instrument).zipWith
      ((iht.cells instrument).zipWith (ihf.cells instrument) Prod.mk) _
  | pointwise _ _ _ ih =>
    rw [meaning, meaning]
    refine node_agrees h _ (.cons ih .nil) ?_
    exact fun instrument => (((ih.cells instrument).map finite).map _).map _
  | @rank series _ ih =>
    rw [meaning, meaning]
    exact node_agrees h _ (.cons ih .nil)
      (rank_agrees h ih.cells (meaning_aligned slice series).cells)
  | @temporal function series _ window _ _ hpositive _ ih =>
    rw [meaning, meaning, h.exact.1, h.exact.2]
    have hle : series.effectiveLookback
        ≤ function.lookbackRule.effectiveLookback series.effectiveLookback (some window) := by
      cases function <;> simp only [Temporal.lookbackRule, LookbackRule.effectiveLookback] <;> omega
    refine node_agrees h _ (.cons (ih.mono hle) (.cons (literal_agrees h _) .nil)) ?_
    exact fun instrument => temporalRow_agrees (ih.cells instrument) function hpositive

end Expression

/-! ### Requested sessions -/

section Requested

variable {data : ResearchData F} {plan : SeriesExecutionPlan F} {start last : ℕ}

lemma sliceOf_sliceSessions (hstart : start ≤ last) (hlast : last ≤ data.sessions.length) :
    ((data.sliceSessions start last).panel plan).SliceOf (data.panel plan) start where
  sessions := by
    apply AgreeFrom.take_drop
    change start + (last - start) ≤ data.sessions.length
    omega
  fields := rfl
  windows := rfl
  universeMembers := rfl
  historicalUniverseMembers := rfl
  industries := rfl
  exact := ⟨rfl, rfl⟩

omit [Numeric F] in
lemma instruments_of_slice {instrument : InstrumentId}
    (h : instrument ∈ (data.sliceSessions start last).instruments plan) :
    instrument ∈ data.instruments plan := by
  rw [ResearchData.instruments, List.mem_mergeSort, List.mem_dedup, List.mem_flatMap] at h
  obtain ⟨session, hsession, hmember⟩ := h
  exact ResearchData.mem_instruments (List.mem_of_mem_drop (List.mem_of_mem_take hsession)) hmember

/-- A plan with a common input is evaluated over the historical members. -/
lemma marketCovered_panel (parsed : ParsedAlpha F) (data : ResearchData F)
    (hcommon : parsed.expression.usesCommon = true) :
    (data.panel (buildSeriesExecutionPlan parsed)).MarketCovered := by
  have hops : (buildSeriesExecutionPlan parsed).nodes.map Node.op = parsed.expression.ops := by
    have happend := append_ops parsed.expression []
    rwa [List.map_nil, List.nil_append] at happend
  have hmembers : data.inputMembers (buildSeriesExecutionPlan parsed)
      = data.historicalUniverseMembers := by
    unfold ResearchData.inputMembers
    apply if_pos
    rw [Expr.usesCommon, ← hops, List.any_map] at hcommon
    exact hcommon
  intro session hsession
  refine ⟨data.membersUnique session, ?_⟩
  intro member hmember
  exact ResearchData.mem_instruments hsession (hmembers ▸ hmember)

/-- The cell of an instrument in some rows. -/
def cellAt {α : Type} (rows : List (List α)) (position index : ℕ) : Option α :=
  rows[position]?.bind (·[index]?)

lemma cellAt_grid (panel : Panel F) {α : Type} (rows : InstrumentId → List α)
    {instrument : InstrumentId} (h : instrument ∈ panel.instruments) (index : ℕ) :
    cellAt (panel.grid rows) (panel.instruments.idxOf instrument) index
      = (rows instrument)[index]? := by
  have hlt := List.idxOf_lt_length_of_mem h
  rw [cellAt, Panel.grid, List.getElem?_map, List.getElem?_eq_getElem hlt, List.getElem_idxOf hlt]
  rfl

variable [DecidableEq F]

/-- On every requested session, every instrument of the slice has the value that it has on the full
history. Where the row evaluator is exact, it returns the same cells. -/
theorem lookback_sound {fieldBindings : FieldBindings} {expression : FormulaNode F}
    {parsed : ParsedAlpha F}
    (hparsed : validateNormalizedAlpha fieldBindings expression = .ok parsed)
    (data : ResearchData F) {first last : ℕ} (hfirst : first ≤ last)
    (hlast : last ≤ data.sessions.length) :
    let plan := buildSeriesExecutionPlan parsed
    let start := first - plan.effectiveLookback
    let slice := data.sliceSessions start last
    ∃ full window,
      evaluateColumnarExecutionMatrix plan (data.panel plan).columnarInputs = .ok full
      ∧ evaluateColumnarExecutionMatrix plan (slice.panel plan).columnarInputs = .ok window
      ∧ (∀ index, first ≤ index → index < last → ∀ instrument ∈ slice.instruments plan,
        ∃ value, cellAt full ((data.instruments plan).idxOf instrument) index = some value
          ∧ cellAt window ((slice.instruments plan).idxOf instrument) (index - start)
            = some value)
      ∧ (parsed.expression.IntegersExact → ∃ fullRows windowRows,
        evaluateSeriesExecutionMatrix plan (data.panel plan).matrixInputs = .ok fullRows
        ∧ evaluateSeriesExecutionMatrix plan (slice.panel plan).matrixInputs = .ok windowRows
        ∧ rowValues fullRows = columnarValues full
        ∧ rowValues windowRows = columnarValues window) := by
  intro plan start slice
  obtain ⟨typed, hlookback⟩ := validateNormalizedAlpha_sound hparsed
  have hgrid := fun data : ResearchData F => (evaluateColumnarExecutionMatrix_eq (data.panel plan)
    typed (marketCovered_panel parsed data)).1
  refine ⟨_, _, hgrid data, hgrid slice, ?_, ?_⟩
  · intro index hindex hlt instrument hinstrument
    have hstart : start = first - parsed.expression.effectiveLookback :=
      congrArg (first - ·) hlookback
    have hslice : (slice.panel plan).SliceOf (data.panel plan) start :=
      sliceOf_sliceSessions (by omega) hlast
    have hlength : ((meaning (slice.panel plan) parsed.expression).cells instrument).length
        = last - start := by
      rw [(meaning_aligned (slice.panel plan) parsed.expression).cells instrument]
      change ((data.sessions.drop start).take (last - start)).length = last - start
      rw [List.length_take, List.length_drop]
      omega
    have hlive : index - start < ((meaning (slice.panel plan) parsed.expression).cells
        instrument).length := by omega
    have hvalue := List.getElem?_eq_getElem hlive
    have hcell := ((meaning_agrees hslice typed).cells instrument).cell (index - start) (by omega)
      hlive
    rw [show start + (index - start) = index by omega, hvalue] at hcell
    exact ⟨_, (cellAt_grid (data.panel plan) _ (instruments_of_slice hinstrument) _).trans
      hcell.symm, (cellAt_grid (slice.panel plan) _ hinstrument _).trans hvalue⟩
  · intro hexact
    obtain ⟨fullRows, full, hfullRows, hfull, _, hfullValues⟩ := sameCells_of_exact typed hexact
      (data.panel plan) (marketCovered_panel parsed data)
    obtain ⟨windowRows, window, hwindowRows, hwindow, _, hwindowValues⟩ := sameCells_of_exact typed
      hexact (slice.panel plan) (marketCovered_panel parsed slice)
    rw [hgrid data, Except.ok.injEq] at hfull
    rw [hgrid slice, Except.ok.injEq] at hwindow
    subst hfull hwindow
    exact ⟨fullRows, windowRows, hfullRows, hwindowRows, hfullValues, hwindowValues⟩

end Requested

/-- One instrument over four sessions. -/
def closeHistory : ResearchData Binary53 where
  sessions := ["2024-01-02", "2024-01-03", "2024-01-04", "2024-01-05"]
  sessionsOrdered := by decide
  fields _ session _ := some (some session.length)
  windows := []
  historicalUniverseMembers _ := ["000001.SZ"]
  membersUnique := by simp
  priced _ _ := true
  industries _ _ := none

/-- `ts_mean(lag(close, 1), 2)`. -/
def delayedMean : FormulaNode Binary53 :=
  .call "ts_mean" [.call "lag" [.field closeFieldId, .number (some (.int 1))],
    .number (some (.int 2))]

theorem lookback_sound_small :
    ∃ parsed, validateNormalizedAlpha closeBindings delayedMean = .ok parsed
      ∧ parsed.effectiveLookback = 2
      ∧ let plan := buildSeriesExecutionPlan parsed
        let slice := closeHistory.sliceSessions (3 - plan.effectiveLookback) 4
        ∃ full window,
          evaluateColumnarExecutionMatrix plan (closeHistory.panel plan).columnarInputs = .ok full
          ∧ evaluateColumnarExecutionMatrix plan (slice.panel plan).columnarInputs = .ok window
          ∧ ∀ instrument ∈ slice.instruments plan,
            ∃ value, cellAt full ((closeHistory.instruments plan).idxOf instrument) 3 = some value
              ∧ cellAt window ((slice.instruments plan).idxOf instrument)
                (3 - (3 - plan.effectiveLookback)) = some value := by
  have hlookback : ((validateNormalizedAlpha closeBindings delayedMean).map
      ParsedAlpha.effectiveLookback).toOption = some 2 :=
    rfl
  cases hparsed : validateNormalizedAlpha closeBindings delayedMean with
  | error issue =>
    rw [hparsed] at hlookback
    cases hlookback
  | ok parsed =>
    rw [hparsed] at hlookback
    obtain ⟨full, window, hfull, hwindow, hcells, _⟩ :=
      lookback_sound hparsed closeHistory (show 3 ≤ 4 by decide) (by decide)
    exact ⟨parsed, rfl, Option.some.inj hlookback, full, window, hfull, hwindow,
      hcells 3 (by decide) (by decide)⟩

end ThesisTrace.Alpha
