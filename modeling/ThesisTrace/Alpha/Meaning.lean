import Mathlib.Algebra.Order.BigOperators.Group.List
import ThesisTrace.Alpha.Evaluation
import ThesisTrace.Alpha.Rolling
import ThesisTrace.Alpha.Typing

/-!
# The meaning of an expression

Every subexpression has one series of cells for each instrument, and a TTM window where it carries
one. A cell that is not finite is missing. The columnar evaluator computes these cells exactly.
-/

namespace ThesisTrace.Alpha
open Numeric Transaction Dataflow SlidingWindow

variable {F : Type} [Numeric F]

/-! ### Aligned inputs -/

/-- Inputs of both evaluators over the same instruments and sessions. -/
structure Panel (F : Type) [Numeric F] where
  sessions : List Session
  sessionsOrdered : sessions.Pairwise (· < ·)
  instruments : List InstrumentId
  instrumentsUnique : instruments.Nodup
  fields : String → Session → InstrumentId → Option F
  windows : List (String × (Session → InstrumentId → ℤ))
  universeMembers : Session → List InstrumentId
  universeCovered : ∀ session ∈ sessions, ∀ member ∈ universeMembers session, member ∈ instruments
  historicalUniverseMembers : Session → List InstrumentId
  industries : Session → InstrumentId → Option String
  rollingSum : RollingSum F

namespace Panel

/-- Common inputs cover the unique historical members of every session. -/
def MarketCovered (panel : Panel F) : Prop :=
  ∀ session ∈ panel.sessions, (panel.historicalUniverseMembers session).Nodup
    ∧ ∀ member ∈ panel.historicalUniverseMembers session, member ∈ panel.instruments

def row {α : Type} (panel : Panel F) (cell : Session → InstrumentId → α)
    (instrument : InstrumentId) : List α :=
  panel.sessions.map fun session => cell session instrument

def grid {α : Type} (panel : Panel F) (row : InstrumentId → List α) : Grid α :=
  panel.instruments.map row

/-- The field lists that `evaluate_alpha_matrix` hands to the row evaluator. -/
def matrixInputs (panel : Panel F) : MatrixInputs F :=
  { sessions := panel.sessions
    instruments := panel.instruments
    values := fun instrument fieldId =>
      panel.row (fun session instrument => (panel.fields fieldId session instrument).bind finite)
        instrument
    windows := fun instrument =>
      panel.windows.map fun window => (window.1, panel.row window.2 instrument)
    universeMembers := panel.universeMembers
    historicalUniverseMembers := panel.historicalUniverseMembers
    industries := panel.industries
    rollingSum := panel.rollingSum }

/-- The matrices of the columnar evaluator. -/
def columnarInputs (panel : Panel F) : ColumnarInputs F :=
  { sessions := panel.sessions
    instruments := panel.instruments
    fields := fun fieldId => panel.grid (panel.row fun session instrument =>
      (panel.fields fieldId session instrument).getD nan)
    windows := panel.windows.map fun window => (window.1, panel.grid (panel.row window.2))
    universeMembers := panel.universeMembers
    historicalUniverseMembers := panel.historicalUniverseMembers
    industries := panel.industries
    rollingSum := panel.rollingSum }

end Panel

/-! ### Builtins on finite series -/

def cells (series : Series F) : List F := series.map fun value => value.getD nan

lemma cells_length (series : Series F) : (cells series).length = series.length :=
  List.length_map ..

def pointwiseCell (function : Pointwise) (value : F) : Option F :=
  match function with
  | .abs => finite (abs value)
  | .log => if toRat value ≤ 0 then none else finite (log value)
  | .sign => some (ofInt (if toRat value < 0 then -1 else if 0 < toRat value then 1 else 0))

def pointwiseSeries (function : Pointwise) (series : Series F) : Series F :=
  series.map fun value => value.bind (pointwiseCell function)

def deltaCell (current prior : Option F) : Option F :=
  current.bind fun current => prior.bind fun prior => finite (sub current prior)

def pctChangeCell (current prior : Option F) : Option F :=
  current.bind fun current => prior.bind fun prior =>
    if toRat prior = 0 then none else finite (sub (div current prior) (ofInt 1))

def temporalSeries (sum : RollingSum F) (function : Temporal) (window : ℕ) (series : Series F) :
    Series F :=
  match function with
  | .lag => lag window series
  | .delta => List.zipWith deltaCell series (lag window series)
  | .pctChange => List.zipWith pctChangeCell series (lag window series)
  | .tsMean => rollingTotal sum window window series
  | .tsSum => rollingTotal sum window 1 series
  | .tsStd => populationStd window (series.map (Option.map fun value => scaledBinary64 (toRat value)))
  | .tsMin => rollingExtreme toRat true window series
  | .tsMax => rollingExtreme toRat false window series

/-- The rank of a value among the finite values of a session. -/
def rankOf (values : List F) (value : F) : F :=
  if values.length = 1 then ofRat (1 / 2)
  else
    let position := values.countP fun other => toRat other < toRat value
    let equal := values.countP fun other => toRat other = toRat value
    averageRank position (position + equal) (values.length - 1)

/-- The rank of an instrument among the members with a finite value. -/
def rankCell (members : List InstrumentId) (value : InstrumentId → F)
    (instrument : InstrumentId) : F :=
  if instrument ∈ members ∧ isFinite (value instrument) = true then
    rankOf ((members.map value).filter isFinite) (value instrument)
  else nan

/-! ### Common market -/

/-- The aggregate of one session, from the Closes of each member. -/
def Panel.marketDay (panel : Panel F) (industryCode : Option String) (session : Session)
    (day : ℕ) : MarketDay F :=
  Alpha.marketDay day ((selectedMembers (panel.historicalUniverseMembers session)
    (panel.industries session) industryCode).map (panel.row fun session instrument =>
      (panel.fields closeFieldId session instrument).getD nan))

def Panel.market (panel : Panel F) (key : CommonKey) : List F :=
  key.1.metric.values (panel.sessions.zipIdx.map fun (session, day) =>
    panel.marketDay key.2 session day)

/-! ### Meaning -/

structure Meaning (F : Type) where
  cells : InstrumentId → List F
  window : Option (InstrumentId → List ℤ)

def instrumentwise : Elementwise fun α => InstrumentId → List α :=
  ⟨fun f rows instrument => (rows instrument).map f,
    fun f left right instrument => List.zipWith f (left instrument) (right instrument)⟩

def maskCell (value : F) (valid : Bool) : F := if valid then value else nan

def Panel.windowRows (panel : Panel F) : List (String × (InstrumentId → List ℤ)) :=
  panel.windows.map fun window => (window.1, panel.row window.2)

/-- The condition of an `if_else` node. -/
def conditionCells (op : PlanOp F) (arguments : List (Meaning F)) :
    Option (InstrumentId → List F) :=
  match op, arguments with
  | .builtin .ifElse, condition :: _ => some condition.cells
  | _, _ => none

/-- A node with its TTM window; arithmetic on windows that do not match is missing. -/
def Panel.node (panel : Panel F) (op : PlanOp F) (arguments : List (Meaning F))
    (value : InstrumentId → List F) : Meaning F :=
  let (window, matching) := ttmNodeWindow instrumentwise panel.windowRows op
    (arguments.map Meaning.window) (conditionCells op arguments)
  match matching with
  | none => ⟨value, window⟩
  | some matching =>
    ⟨fun instrument => List.zipWith maskCell (value instrument) (matching instrument), window⟩

def Panel.literal (panel : Panel F) (value : Literal F) : Meaning F :=
  panel.node (.number value) [] fun _ => List.replicate panel.sessions.length value.item.toFloat

def temporalRow (sum : RollingSum F) (function : Temporal) (window : ℕ) (row : List F) : List F :=
  if function = .pctChange then columnarPctChange window row
  else cells (temporalSeries sum function window (row.map finite))

def meaning (panel : Panel F) : Expr F → Meaning F
  | .number value => panel.literal value
  | .field fieldId => panel.node (.field fieldId) []
    (panel.row fun session instrument => (panel.fields fieldId session instrument).getD nan)
  | .common identifier industryCode =>
    panel.node (.common identifier industryCode) []
      fun _ => panel.market (identifier, industryCode)
  | .unary operator operand =>
    let operand := meaning panel operand
    panel.node (.unary operator) [operand] fun instrument =>
      (operand.cells instrument).map (columnarUnary operator)
  | .binary operator left right =>
    let left := meaning panel left
    let right := meaning panel right
    panel.node (.binary operator) [left, right] fun instrument =>
      List.zipWith (columnarBinary operator) (left.cells instrument) (right.cells instrument)
  | .ifElse condition whenTrue whenFalse =>
    let condition := meaning panel condition
    let whenTrue := meaning panel whenTrue
    let whenFalse := meaning panel whenFalse
    panel.node (.builtin .ifElse) [condition, whenTrue, whenFalse] fun instrument =>
      List.zipWith columnarIfElse (condition.cells instrument)
        (List.zip (whenTrue.cells instrument) (whenFalse.cells instrument))
  | .pointwise function value =>
    let value := meaning panel value
    panel.node (.builtin (.pointwise function)) [value] fun instrument =>
      cells (pointwiseSeries function ((value.cells instrument).map finite))
  | .rank series =>
    let series := meaning panel series
    panel.node (.builtin .rank) [series] fun instrument =>
      panel.sessions.zipIdx.map fun (session, index) =>
        rankCell (panel.universeMembers session)
          (fun member => (series.cells member).getD index nan) instrument
  | .temporal function series window =>
    let series := meaning panel series
    panel.node (.builtin (.temporal function)) [series, panel.literal (.int window)]
      fun instrument => temporalRow panel.rollingSum function window (series.cells instrument)

/-! ### Windows of other arrays -/

/-- Elementwise operations keep a relation between two kinds of arrays. -/
structure Elementwise.Keeps {A B : Type → Type} (arrays : Elementwise A) (arrays' : Elementwise B)
    (R : ∀ {α : Type}, A α → B α → Prop) : Prop where
  map : ∀ {α β : Type} (f : α → β) {xs : A α} {xs' : B α}, R xs xs' →
    R (arrays.map f xs) (arrays'.map f xs')
  zipWith : ∀ {α β γ : Type} (f : α → β → γ) {xs : A α} {xs' : B α} {ys : A β} {ys' : B β},
    R xs xs' → R ys ys' → R (arrays.zipWith f xs ys) (arrays'.zipWith f xs' ys')

omit [Numeric F] in
lemma lookup_rel {α β : Type} {R : α → β → Prop} {fields : List (String × α)}
    {fields' : List (String × β)}
    (h : List.Forall₂ (fun field field' => field.1 = field'.1 ∧ R field.2 field'.2) fields fields')
    (fieldId : String) : Option.Rel R (fields.lookup fieldId) (fields'.lookup fieldId) := by
  induction h with
  | nil => exact .none
  | @cons field field' _ _ hfield _ ih =>
    rw [List.lookup_cons, List.lookup_cons, hfield.1]
    cases fieldId == field'.1 with
    | true => exact .some hfield.2
    | false => exact ih

/-- The windows of a node are related where its inputs are. -/
lemma ttmNodeWindow_rel {A B : Type → Type} {arrays : Elementwise A} {arrays' : Elementwise B}
    {R : ∀ {α : Type}, A α → B α → Prop} (h : arrays.Keeps arrays' R)
    {fields : List (String × A ℤ)} {fields' : List (String × B ℤ)}
    (hfields : List.Forall₂ (fun field field' => field.1 = field'.1 ∧ R field.2 field'.2)
      fields fields') (op : PlanOp F) {windows : List (Option (A ℤ))}
    {windows' : List (Option (B ℤ))} (hwindows : List.Forall₂ (Option.Rel R) windows windows')
    {condition : Option (A F)} {condition' : Option (B F)}
    (hcondition : Option.Rel R condition condition') :
    Option.Rel R (ttmNodeWindow arrays fields op windows condition).1
        (ttmNodeWindow arrays' fields' op windows' condition').1
      ∧ Option.Rel R (ttmNodeWindow arrays fields op windows condition).2
        (ttmNodeWindow arrays' fields' op windows' condition').2 := by
  cases op with
  | number value => exact ⟨.none, .none⟩
  | common identifier industryCode => exact ⟨.none, .none⟩
  | field fieldId => exact ⟨lookup_rel hfields fieldId, .none⟩
  | unary operator =>
    cases operator with
    | not => exact ⟨.none, .none⟩
    | negate =>
      rcases hwindows with _ | ⟨hwindow, _ | _⟩
      · exact ⟨.none, .none⟩
      · exact ⟨hwindow, .none⟩
      · exact ⟨.none, .none⟩
  | builtin builtin =>
    cases builtin with
    | rank => exact ⟨.none, .none⟩
    | temporal function => exact ⟨.none, .none⟩
    | pointwise function =>
      rcases hwindows with _ | ⟨hwindow, _ | _⟩
      · exact ⟨.none, .none⟩
      · exact ⟨hwindow, .none⟩
      · exact ⟨.none, .none⟩
    | ifElse =>
      rcases hwindows with _ | ⟨_, _ | ⟨hleft, _ | ⟨hright, _ | _⟩⟩⟩ <;>
        try exact ⟨.none, .none⟩
      cases hcondition with
      | none => exact ⟨.none, .none⟩
      | some hcondition =>
        have hunselected := h.map (fun _ => (-1 : ℤ)) hcondition
        cases hleft with
        | none =>
          cases hright with
          | none => exact ⟨.none, .none⟩
          | some hright =>
            exact ⟨.some (h.zipWith _ hcondition (h.zipWith _ hunselected hright)), .none⟩
        | some hleft =>
          cases hright with
          | none => exact ⟨.some (h.zipWith _ hcondition (h.zipWith _ hleft hunselected)), .none⟩
          | some hright => exact ⟨.some (h.zipWith _ hcondition (h.zipWith _ hleft hright)), .none⟩
  | binary operator =>
    rcases hwindows with _ | ⟨hleft, _ | ⟨hright, _ | _⟩⟩ <;> try exact ⟨.none, .none⟩
    simp only [ttmNodeWindow]
    split
    · cases hleft with
      | none => exact ⟨hright, .none⟩
      | some hleft =>
        cases hright with
        | none => exact ⟨.some hleft, .none⟩
        | some hright => exact ⟨.some (h.zipWith _ hleft hright), .some (h.zipWith _ hleft hright)⟩
    · exact ⟨.none, .none⟩

lemma option_rel_map {α β : Type} {image : α → β} {x : Option α} {y : Option β} :
    Option.Rel (fun x y => image x = y) x y ↔ y = x.map image := by
  constructor
  · rintro (h | _)
    · rw [Option.map_some, h]
    · rfl
  · rintro rfl
    cases x with
    | none => exact .none
    | some x => exact .some rfl

/-- The windows of a node on the images of its inputs are the images of its windows. -/
lemma ttmNodeWindow_image {A B : Type → Type} {arrays : Elementwise A} {arrays' : Elementwise B}
    {image : ∀ {α : Type}, A α → B α}
    (h : arrays.Keeps arrays' fun {_} xs ys => image xs = ys) (fields : List (String × A ℤ))
    (op : PlanOp F) (windows : List (Option (A ℤ))) (condition : Option (A F)) :
    ttmNodeWindow arrays' (fields.map fun field => (field.1, image field.2)) op
        (windows.map (Option.map image)) (condition.map image)
      = ((ttmNodeWindow arrays fields op windows condition).1.map image,
        (ttmNodeWindow arrays fields op windows condition).2.map image) := by
  have hfields : List.Forall₂ (fun field field' => field.1 = field'.1 ∧ image field.2 = field'.2)
      fields (fields.map fun field => (field.1, image field.2)) := by
    simp [List.forall₂_map_right_iff, List.forall₂_same]
  have hwindows : List.Forall₂ (Option.Rel fun window window' => image window = window') windows
      (windows.map (Option.map image)) := by
    simp [List.forall₂_map_right_iff, List.forall₂_same, option_rel_map]
  have hcondition := option_rel_map.mpr (rfl : condition.map image = condition.map image)
  have hrel := ttmNodeWindow_rel h hfields op hwindows hcondition
  exact Prod.ext (option_rel_map.mp hrel.1) (option_rel_map.mp hrel.2)

lemma keeps_grid (panel : Panel F) :
    instrumentwise.Keeps gridwise fun {_} rows grid => panel.grid rows = grid := by
  constructor
  · rintro α β f rows grid rfl
    simp [gridwise, instrumentwise, Panel.grid]
  · rintro α β γ f left grid right grid' rfl rfl
    simp only [gridwise, instrumentwise, Panel.grid]
    induction panel.instruments with
    | nil => rfl
    | cons instrument instruments ih => simp only [List.map_cons, List.zipWith_cons_cons, ih]

lemma keeps_row (instrument : InstrumentId) :
    instrumentwise.Keeps rowwise fun {_} rows row => rows instrument = row := by
  constructor
  · rintro α β f rows row rfl
    rfl
  · rintro α β γ f left row right row' rfl rfl
    rfl

/-! ### Alignment -/

/-- Every row covers the sessions. -/
def AlignedRows {α : Type} (rows : InstrumentId → List α) (length : ℕ) : Prop :=
  ∀ instrument, (rows instrument).length = length

structure Meaning.Aligned (meaning : Meaning F) (length : ℕ) : Prop where
  cells : AlignedRows meaning.cells length
  window : ∀ window, meaning.window = some window → AlignedRows window length

lemma keeps_aligned (length : ℕ) :
    instrumentwise.Keeps instrumentwise fun {_} rows _ => AlignedRows rows length := by
  constructor
  · intro α β f rows _ h instrument
    simp only [instrumentwise, List.length_map, h instrument]
  · intro α β γ f left _ right _ hleft hright instrument
    simp only [instrumentwise, List.length_zipWith, hleft instrument, hright instrument,
      Nat.min_self]

lemma option_rel_self {α : Type} {P : α → Prop} {x : Option α} :
    Option.Rel (fun x _ => P x) x x ↔ ∀ y, x = some y → P y := by
  constructor
  · rintro h y rfl
    cases h with
    | some h => exact h
  · intro h
    cases x with
    | none => exact .none
    | some x => exact .some (h x rfl)

/-- A node of aligned rows over aligned arguments is aligned. -/
lemma node_aligned (panel : Panel F) (op : PlanOp F) {arguments : List (Meaning F)}
    {value : InstrumentId → List F}
    (h : ∀ argument ∈ arguments, argument.Aligned panel.sessions.length)
    (hvalue : AlignedRows value panel.sessions.length) :
    (panel.node op arguments value).Aligned panel.sessions.length := by
  have hfields : List.Forall₂ (fun field field' : String × (InstrumentId → List ℤ) =>
      field.1 = field'.1 ∧ AlignedRows field.2 panel.sessions.length)
      panel.windowRows panel.windowRows := by
    rw [List.forall₂_same]
    intro field hfield
    obtain ⟨window, _, rfl⟩ := List.mem_map.mp hfield
    exact ⟨rfl, fun instrument => List.length_map ..⟩
  have hwindows : List.Forall₂ (Option.Rel fun rows _ => AlignedRows rows panel.sessions.length)
      (arguments.map Meaning.window) (arguments.map Meaning.window) := by
    rw [List.forall₂_same]
    intro window hwindow
    obtain ⟨argument, hargument, rfl⟩ := List.mem_map.mp hwindow
    exact option_rel_self.mpr (h argument hargument).window
  have hcondition : Option.Rel (fun rows _ => AlignedRows rows panel.sessions.length)
      (conditionCells op arguments) (conditionCells op arguments) := by
    rw [option_rel_self]
    intro condition hcells
    unfold conditionCells at hcells
    split at hcells
    · cases hcells
      exact (h _ List.mem_cons_self).cells
    · cases hcells
  have hnode := ttmNodeWindow_rel (keeps_aligned panel.sessions.length) hfields op hwindows
    hcondition
  rw [option_rel_self, option_rel_self] at hnode
  unfold Panel.node
  dsimp only
  split
  · exact ⟨hvalue, hnode.1⟩
  · next matching hmatching =>
    refine ⟨?_, hnode.1⟩
    intro instrument
    rw [List.length_zipWith, hvalue instrument, hnode.2 matching hmatching instrument,
      Nat.min_self]

lemma columnarPctChange_length (window : ℕ) (row : List F) :
    (columnarPctChange window row).length = row.length := by
  unfold columnarPctChange
  split
  · exact List.length_replicate
  · rw [List.length_append, List.length_replicate, List.length_zipWith, List.length_drop,
      List.length_take]
    omega

lemma lag_length {α : Type} (window : ℕ) (series : Series α) :
    (lag window series).length = series.length := by
  simp [lag]

lemma temporalSeries_length (sum : RollingSum F) (function : Temporal) (window : ℕ)
    (series : Series F) : (temporalSeries sum function window series).length = series.length := by
  have hlag := lag_length window series
  cases function with
  | lag => exact hlag
  | delta => rw [temporalSeries, List.length_zipWith, hlag, Nat.min_self]
  | pctChange => rw [temporalSeries, List.length_zipWith, hlag, Nat.min_self]
  | tsMean => exact rollingTotal_length sum window window series
  | tsSum => exact rollingTotal_length sum window 1 series
  | tsStd => rw [temporalSeries, populationStd_eq_windowed, windowed_length, List.length_map]
  | tsMin => rw [temporalSeries, rollingExtreme_eq_windowed, windowed_length]
  | tsMax => rw [temporalSeries, rollingExtreme_eq_windowed, windowed_length]

lemma temporalRow_length (sum : RollingSum F) (function : Temporal) (window : ℕ)
    (row : List F) : (temporalRow sum function window row).length = row.length := by
  unfold temporalRow
  split
  · exact columnarPctChange_length window row
  · rw [cells_length, temporalSeries_length, List.length_map]

lemma literal_aligned (panel : Panel F) (value : Literal F) :
    (panel.literal value).Aligned panel.sessions.length :=
  node_aligned panel _ (by simp) fun _ => List.length_replicate

lemma market_length (panel : Panel F) (key : CommonKey) :
    (panel.market key).length = panel.sessions.length := by
  unfold Panel.market
  cases key.1.metric <;> simp [CommonMetric.values]

/-- Every subexpression covers the sessions. -/
theorem meaning_aligned (panel : Panel F) (expression : Expr F) :
    (meaning panel expression).Aligned panel.sessions.length := by
  induction expression with
  | number value => exact literal_aligned panel value
  | field fieldId =>
    rw [meaning]
    exact node_aligned panel _ (by simp) fun _ => List.length_map ..
  | common identifier industryCode =>
    rw [meaning]
    exact node_aligned panel _ (by simp) fun _ => market_length panel _
  | unary operator operand ih =>
    rw [meaning]
    refine node_aligned panel _ (by simpa using ih) ?_
    intro instrument
    rw [List.length_map, ih.cells instrument]
  | binary operator left right ihl ihr =>
    rw [meaning]
    refine node_aligned panel _ (by simp [ihl, ihr]) ?_
    intro instrument
    rw [List.length_zipWith, ihl.cells instrument, ihr.cells instrument, Nat.min_self]
  | ifElse condition whenTrue whenFalse ihc iht ihf =>
    rw [meaning]
    refine node_aligned panel _ (by simp [ihc, iht, ihf]) ?_
    intro instrument
    rw [List.length_zipWith, List.length_zip, ihc.cells instrument, iht.cells instrument,
      ihf.cells instrument, Nat.min_self, Nat.min_self]
  | pointwise function value ih =>
    rw [meaning]
    refine node_aligned panel _ (by simpa using ih) ?_
    intro instrument
    rw [cells_length, pointwiseSeries, List.length_map, List.length_map, ih.cells instrument]
  | rank series ih =>
    rw [meaning]
    refine node_aligned panel _ (by simpa using ih) ?_
    intro instrument
    rw [List.length_map, List.length_zipIdx]
  | temporal function series window ih =>
    rw [meaning]
    refine node_aligned panel _ (by simp [ih, literal_aligned]) ?_
    intro instrument
    rw [temporalRow_length, ih.cells instrument]

/-! ### Common values of a plan -/

variable (panel : Panel F)

/-- Closes that both evaluators read alike. -/
def SameCloses (closes : InstrumentId → List F) : Prop :=
  ∀ instrument, (closes instrument).map finite
    = (panel.row (fun session instrument => (panel.fields closeFieldId session instrument).getD nan)
      instrument).map finite

lemma eq_or_not_positive {x y : F} (h : finite x = finite y) :
    x = y ∨ positiveClose x = false ∧ positiveClose y = false := by
  unfold finite at h
  unfold positiveClose
  cases hx : isFinite x <;> cases hy : isFinite y <;> simp_all

/-- A return reads finite Closes only. -/
lemma memberReturn_congr {day : ℕ} {closes closes' : List F}
    (h : closes.map finite = closes'.map finite) :
    memberReturn day closes = memberReturn day closes' := by
  have hcell : ∀ index, finite (closes.getD index nan) = finite (closes'.getD index nan) := by
    intro index
    have hindex := congrArg (fun cells => cells.getD index (finite nan)) h
    simpa only [List.getD_map] using hindex
  have hcurrent := hcell day
  have hprevious := hcell (day - 1)
  unfold memberReturn
  generalize closes.getD day nan = current, closes.getD (day - 1) nan = previous,
    closes'.getD day nan = current', closes'.getD (day - 1) nan = previous'
    at hcurrent hprevious ⊢
  rcases eq_or_not_positive hcurrent with rfl | ⟨hx, hx'⟩
  · rcases eq_or_not_positive hprevious with rfl | ⟨hy, hy'⟩
    · rfl
    · simp only [hy, hy']
      rfl
  · simp only [hx, hx']
    rfl

lemma grid_getD_idxOf {α : Type} (rows : InstrumentId → List α) {instrument : InstrumentId}
    (h : instrument ∈ panel.instruments) :
    (panel.grid rows).getD (panel.instruments.idxOf instrument) [] = rows instrument := by
  have hlt := List.idxOf_lt_length_of_mem h
  rw [List.getD_eq_getElem?_getD, Panel.grid, List.getElem?_map, List.getElem?_eq_getElem hlt,
    List.getElem_idxOf hlt]
  rfl

/-- Both evaluators aggregate the same market. -/
lemma computeCommonMarketSeries_eq (hmarket : panel.MarketCovered)
    {closes : InstrumentId → List F} (haligned : AlignedRows closes panel.sessions.length)
    (hcloses : SameCloses panel closes) (industryCode : Option String) :
    computeCommonMarketSeries panel.sessions panel.instruments (panel.grid closes)
        panel.historicalUniverseMembers panel.industries industryCode
      = .ok (panel.sessions.zipIdx.map fun day =>
        panel.marketDay industryCode day.1 day.2) := by
  have hshape : (panel.grid closes).length = panel.instruments.length
      ∧ ∀ row ∈ panel.grid closes, row.length = panel.sessions.length := by
    refine ⟨List.length_map .., ?_⟩
    intro row hrow
    obtain ⟨instrument, _, rfl⟩ := List.mem_map.mp hrow
    exact haligned instrument
  unfold computeCommonMarketSeries
  rw [require, if_pos hshape, ok_bind, require,
    if_pos ⟨panel.instrumentsUnique, panel.sessionsOrdered⟩, ok_bind]
  apply mapM_ok
  rintro ⟨session, day⟩ hday
  have hmembers := hmarket session (List.fst_mem_of_mem_zipIdx hday)
  simp only [require, if_pos hmembers, ok_bind, pure, Except.pure, Panel.marketDay,
    Alpha.marketDay, List.length_map, List.map_map]
  have houtcomes : (selectedMembers (panel.historicalUniverseMembers session)
        (panel.industries session) industryCode).map
        (memberReturn day ∘ fun member =>
          (panel.grid closes).getD (panel.instruments.idxOf member) [])
      = (selectedMembers (panel.historicalUniverseMembers session)
        (panel.industries session) industryCode).map
        (memberReturn day ∘ panel.row fun session instrument =>
          (panel.fields closeFieldId session instrument).getD nan) := by
    apply List.map_congr_left
    intro member hmember
    have hmem : member ∈ panel.instruments := by
      apply hmembers.2
      exact List.mem_of_mem_filter (List.mem_mergeSort.mp hmember)
    rw [Function.comp_apply, grid_getD_idxOf panel closes hmem]
    exact memberReturn_congr (hcloses member)
  rw [houtcomes]

/-- Every common input of a plan is served with the series of the market. -/
theorem commonValues_ok {nodes : List (SeriesPlanNode F)}
    (hmarket : ∀ node ∈ nodes, node.op.isCommon = true → panel.MarketCovered)
    {closes : InstrumentId → List F} (haligned : AlignedRows closes panel.sessions.length)
    (hcloses : SameCloses panel closes) :
    ∃ common, commonValues nodes (computeCommonMarketSeries panel.sessions panel.instruments
        (panel.grid closes) panel.historicalUniverseMembers panel.industries) = .ok common
      ∧ ∀ identifier industryCode, .common identifier industryCode ∈ nodes.map Node.op →
        common.lookup (identifier, industryCode) = some (panel.market (identifier, industryCode)) := by
  unfold commonValues
  refine ⟨_, mapM_ok (g := fun key => (key, panel.market key)) ?_, ?_⟩
  · intro key hkey
    obtain ⟨node, hnode, hop⟩ := List.mem_filterMap.mp hkey
    have hcovered : panel.MarketCovered := by
      apply hmarket node hnode
      split at hop
      · next heq =>
        rw [heq]
        rfl
      · cases hop
    rw [computeCommonMarketSeries_eq panel hcovered haligned hcloses]
    rfl
  · intro identifier industryCode hop
    obtain ⟨node, hnode, hop⟩ := List.mem_map.mp hop
    apply List.lookup_graph panel.market
    exact List.mem_filterMap.mpr ⟨node, hnode, by rw [hop]⟩

end ThesisTrace.Alpha
