import ThesisTrace.Data.IndicatorStates

/-!
# Alignment of indicator states

The transitions of an instrument stand at the sessions of its states, and the last one up to a
session has the values of the latest state of the rows up to that session.
-/

namespace ThesisTrace.IndicatorSeries
open Transaction IndicatorVersions KeyOrder HistoryProjection

/-! ### The loop -/

section Loop

variable {W T R : Type} [LinearOrder T] {same : Fact W T → Fact W T → Bool}
  {transition : CalendarDate → Fact W T → Except SeriesError R} {agree : W → List W → W}
  {facts rows : List (Fact W T)} {states : States W T} {sessions : List CalendarDate}

/-- The state that a session selects -/
def selectedAt (same : Fact W T → Fact W T → Bool) (facts : List (Fact W T)) (states : States W T)
    (session : CalendarDate) : Option (Fact W T) :=
  selectedState ((facts.filter (·.stateEffectiveSession ≤ session)).foldl (updateState same) states)

omit [LinearOrder T] in
lemma takeWhile_session (h : facts.Pairwise fun a b =>
    a.stateEffectiveSession ≤ b.stateEffectiveSession) (session : CalendarDate) :
    facts.takeWhile (·.stateEffectiveSession ≤ session) =
      facts.filter (·.stateEffectiveSession ≤ session) := by
  induction facts with
  | nil => rfl
  | cons fact facts ih =>
    obtain ⟨hfirst, htail⟩ := List.pairwise_cons.mp h
    by_cases hle : fact.stateEffectiveSession ≤ session
    · rw [List.takeWhile_cons_of_pos (by simpa using hle),
        List.filter_cons_of_pos (by simpa using hle), ih htail]
    · rw [List.takeWhile_cons_of_neg (by simpa using hle), eq_comm, List.filter_eq_nil_iff]
      refine List.forall_mem_cons.mpr ⟨by simpa using hle, fun other hother => ?_⟩
      rw [decide_eq_true_eq]
      exact fun hother' => hle ((hfirst other hother).trans hother')

lemma selectedAt_dropWhile (h : facts.Pairwise fun a b =>
    a.stateEffectiveSession ≤ b.stateEffectiveSession) {session later : CalendarDate}
    (hlater : session ≤ later) :
    selectedAt same (facts.dropWhile (·.stateEffectiveSession ≤ session))
        ((facts.takeWhile (·.stateEffectiveSession ≤ session)).foldl (updateState same) states)
        later = selectedAt same facts states later := by
  have hsplit : facts.filter (·.stateEffectiveSession ≤ later) =
      facts.takeWhile (·.stateEffectiveSession ≤ session) ++
        (facts.dropWhile (·.stateEffectiveSession ≤ session)).filter
          (·.stateEffectiveSession ≤ later) := by
    conv_lhs => rw [← List.takeWhile_append_dropWhile
      (p := fun fact : Fact W T => decide (fact.stateEffectiveSession ≤ session)) (l := facts)]
    rw [List.filter_append, List.filter_eq_self.mpr]
    intro fact hfact
    rw [takeWhile_session h] at hfact
    exact decide_eq_true ((of_decide_eq_true (List.mem_filter.mp hfact).2).trans hlater)
  rw [selectedAt, selectedAt, hsplit, List.foldl_append]

/-- The loop returns the transition of the state that each session selects. -/
lemma stateLoop_ok (hfacts : facts.Pairwise fun a b =>
    a.stateEffectiveSession ≤ b.stateEffectiveSession) (hsessions : sessions.Pairwise (· < ·))
    (hselected : ∀ session ∈ sessions, ∃ selected row,
      selectedAt same facts states session = some selected ∧
        transition session selected = .ok row) :
    ∃ rows, stateLoop same transition sessions facts states = .ok rows ∧
      List.Forall₂ (fun session row => ∃ selected,
        selectedAt same facts states session = some selected ∧
          transition session selected = .ok row) sessions rows := by
  induction sessions generalizing facts states with
  | nil => exact ⟨[], rfl, .nil⟩
  | cons session sessions ih =>
    obtain ⟨hfirst, hsessions⟩ := List.pairwise_cons.mp hsessions
    obtain ⟨⟨selected, row, hstate, hrow⟩, hselected⟩ := List.forall_mem_cons.mp hselected
    obtain ⟨rows, hrows, hall⟩ := @ih
      (facts.dropWhile (·.stateEffectiveSession ≤ session))
      ((facts.takeWhile (·.stateEffectiveSession ≤ session)).foldl (updateState same) states)
      (hfacts.sublist (List.dropWhile_sublist _)) hsessions
      fun later hlater => by
        rw [selectedAt_dropWhile hfacts (hfirst later hlater).le]
        exact hselected later hlater
    refine ⟨row :: rows, ?_, .cons ⟨selected, hstate, hrow⟩ ?_⟩
    · rw [selectedAt, ← takeWhile_session hfacts] at hstate
      rw [stateLoop, hstate]
      simp only [bind_ok_iff, pure_ok_iff, found_ok_iff]
      exact ⟨selected, rfl, row, hrow, rows, hrows, rfl⟩
    · refine (List.forall₂_iff_zip.mp hall).elim fun hlength hzip =>
        List.forall₂_iff_zip.mpr ⟨hlength, fun {later row} hmem => ?_⟩
      rw [← selectedAt_dropWhile hfacts (hfirst later (List.of_mem_zip hmem).1).le]
      exact hzip hmem

/-- What a session selects is the latest state of the rows up to it. -/
lemma selectedAt_eq (hsame : ∀ a b, same a b → a.groupKey = b.groupKey) (session : CalendarDate) :
    selectedAt same (sortBy Fact.order (agreeingObservationStates agree rows)) ∅ session =
      latestState agree (rows.filter (·.stateEffectiveSession ≤ session)) := by
  have hnodup := (sorted_groupKeys_nodup agree rows).sublist
    ((@List.filter_sublist _ (fun fact : Fact W T => decide (fact.stateEffectiveSession ≤ session))
      (sortBy Fact.order (agreeingObservationStates agree rows))).map Fact.groupKey)
  rw [selectedAt, foldl_updateState_same hsame hnodup]
  refine selectedState_foldl_congr ((sortBy_pairwise _ _).filter _) (sortBy_pairwise _ _) hnodup
    (sorted_groupKeys_nodup _ _) fun state => ?_
  rw [mem_sortBy, ← mem_filter_agreeingObservationStates, List.mem_filter, List.mem_filter,
    mem_sortBy]

variable (same states) in
lemma mem_foldl_updateState {key : String ×ₗ WithBot String} :
    key ∈ facts.foldl (updateState same) states ↔
      key ∈ states ∨ ∃ fact ∈ facts, fact.reportKey = key := by
  induction facts generalizing states with
  | nil => simp
  | cons fact facts ih =>
    rw [List.foldl_cons, ih, updateState, OrderedMap.mem_set]
    simp only [List.exists_mem_cons_iff, eq_comm (a := key)]
    exact ⟨fun h => by tauto, fun h => by tauto⟩

/-- Rows have a latest state. -/
lemma latestState_isSome (h : rows ≠ []) : (latestState agree rows).isSome := by
  obtain ⟨row, rows', rfl⟩ := List.exists_cons_of_ne_nil h
  obtain ⟨first, rest, hgroup⟩ : ∃ first rest, (row :: rows').filter
      (fun other => other.groupKey = row.groupKey) = first :: rest :=
    ⟨row, rows'.filter fun other => other.groupKey = row.groupKey,
      List.filter_cons_of_pos (decide_eq_true rfl)⟩
  have hkey : first.groupKey = row.groupKey := by
    have hmem : first ∈ (row :: rows').filter fun other => other.groupKey = row.groupKey :=
      hgroup ▸ List.mem_cons_self
    exact of_decide_eq_true (List.mem_filter.mp hmem).2
  have hstate : agreeingState agree first rest ∈ agreeingObservationStates agree (row :: rows') := by
    refine mem_agreeingObservationStates.mpr ⟨first, rest, ?_, rfl⟩
    rw [groupKey_agreeingState, hkey]
    exact hgroup
  have hmem := (mem_foldl_updateState (fun _ _ => false) ∅).mpr
    (.inr ⟨_, (sortBy_perm Fact.order _).mem_iff.mpr hstate, rfl⟩)
  unfold latestState selectedState
  rw [AList.mem_keys] at hmem
  cases hmax : ((sortBy Fact.order (agreeingObservationStates agree (row :: rows'))).foldl
      (updateState fun _ _ => false) (∅ : States W T)).keys.max? with
  | none =>
    rw [List.max?_eq_none_iff] at hmax
    rw [hmax] at hmem
    cases hmem
  | some key => exact AList.lookup_isSome.mpr (AList.mem_keys.mpr (List.max?_eq_some_iff.mp hmax).1)

/-- What agreement keeps, the latest state has. -/
lemma cells_latestState {P : W → Prop}
    (hagree : ∀ w ws, P w → (∀ w' ∈ ws, P w') → P (agree w ws))
    (hrows : ∀ row ∈ rows, P row.cells) {state : Fact W T}
    (h : latestState agree rows = some state) : P state.cells := by
  have hstates : ∀ fact ∈ agreeingObservationStates agree rows, P fact.cells := by
    intro fact hfact
    obtain ⟨first, rest, hgroup, rfl⟩ := mem_agreeingObservationStates.mp hfact
    have hmem : ∀ row ∈ first :: rest, P row.cells := fun row hrow =>
      hrows row (List.mem_filter.mp (hgroup ▸ hrow)).1
    obtain ⟨hfirst, hrest⟩ := List.forall_mem_cons.mp hmem
    cases rest with
    | nil => exact hfirst
    | cons second rest =>
      exact hagree _ _ hfirst fun w hw => by
        obtain ⟨row, hrow, rfl⟩ := List.mem_map.mp hw
        exact hrest row hrow
  have hfold : ∀ (facts : List (Fact W T)) (previous : Option (Fact W T)),
      (∀ fact ∈ facts, P fact.cells) → (∀ fact ∈ previous, P fact.cells) →
      ∀ fact ∈ facts.foldl (reportStep fun _ _ => false) previous, P fact.cells := by
    intro facts
    induction facts with
    | nil => exact fun _ _ h => h
    | cons row facts ih =>
      intro previous hfacts hprevious
      obtain ⟨hrow, hfacts⟩ := List.forall_mem_cons.mp hfacts
      refine ih _ hfacts fun fact hfact => ?_
      obtain rfl := Option.some.inj hfact
      unfold markConflict
      split
      · exact hrow
      · split <;> exact hrow
  unfold latestState selectedState at h
  obtain ⟨key, -, hlookup⟩ := Option.bind_eq_some_iff.mp h
  rw [lookup_foldl_updateState] at hlookup
  refine hfold _ none (fun fact hfact => ?_) nofun state hlookup
  exact hstates fact (mem_sortBy.mp (List.mem_filter.mp hfact).1)

end Loop

/-! ### Transitions of an instrument -/

/-- A cell on which all rows of a group agree -/
def agreeingCell (first : Option String) (rest : List (Option String)) : Option String :=
  if ∀ cell ∈ rest, cell = first then first else none

lemma agreeingCell_perm (w : Option String) (ws : List (Option String)) (w' : Option String)
    (ws' : List (Option String)) (h : (w :: ws).Perm (w' :: ws')) :
    agreeingCell w ws = agreeingCell w' ws' := by
  have hall : ∀ {a : Option String} {as bs : List (Option String)} {b : Option String},
      (a :: as).Perm (b :: bs) → (∀ cell ∈ as, cell = a) → b = a ∧ ∀ cell ∈ bs, cell = b := by
    intro a as bs b hperm has
    have hsame : ∀ cell ∈ b :: bs, cell = a := fun cell hcell =>
      (List.mem_cons.mp (hperm.mem_iff.mpr hcell)).elim id (has cell)
    obtain ⟨hb, hbs⟩ := List.forall_mem_cons.mp hsame
    exact ⟨hb, fun cell hcell => (hbs cell hcell).trans hb.symm⟩
  unfold agreeingCell
  by_cases has : ∀ cell ∈ ws, cell = w
  · obtain ⟨hw, hws⟩ := hall h has
    rw [if_pos has, if_pos hws, hw]
  · rw [if_neg has, if_neg fun hws => has (hall h.symm hws).2]

lemma agreeingCells_apply {columns : List String} {column : String} (h : column ∈ columns)
    (w : String → Option String) (ws : List (String → Option String)) :
    agreeingCells columns w ws column = agreeingCell (w column) (ws.map fun cells => cells column) := by
  simp [agreeingCells, agreeingCell, h]

section Series

variable {I T Q N : Type} [LinearOrder I] [LinearOrder T] (numbers : IndicatorNumbers Q N)

/-- What is read of one column -/
def columnFacts (column : String) (rows : List (IndicatorRow I T)) : List (Fact (Option String) T) :=
  (rows.filterMap IndicatorRow.fact).map (Fact.pick fun cells => cells column)

/-- The value of a field that follows from some rows of an instrument -/
def seriesValue (field : IndicatorField) (rows : List (IndicatorRow I T)) : Option N :=
  (latestState agreeingCell (columnFacts field.sourceColumn rows)).bind fun state =>
    if state.availabilityStatus = .available then
      (normalizeIndicatorValue numbers state.cells field.sourceUnit).toOption.join
    else none

/-- The rows of an instrument that are effective up to a session -/
def visible (rows : List (IndicatorRow I T)) (instrumentId : I) (session : CalendarDate) :
    List (IndicatorRow I T) :=
  rows.filter fun row => row.instrumentId = instrumentId ∧ row.stateEffectiveSession.any (· ≤ session)

/-- The numbers of the source columns can be read, as the store checks before it projects. -/
def Readable (fields : List IndicatorField) (rows : List (IndicatorRow I T)) : Prop :=
  ∀ row ∈ rows, ∀ field ∈ fields, ∃ value,
    normalizeIndicatorValue numbers (row.cells field.sourceColumn) field.sourceUnit = .ok value

/-- The sessions at which an instrument changes its state -/
def sessionsOf (rows : List (IndicatorRow I T)) : List CalendarDate :=
  (rows.filterMap IndicatorRow.stateEffectiveSession).toFinset.sort

variable {numbers} {fields : List IndicatorField} {field : IndicatorField}
  {rows rows' : List (IndicatorRow I T)} {instrumentId : I}

omit [LinearOrder I] in
theorem seriesValue_perm (h : rows.Perm rows') :
    seriesValue numbers field rows = seriesValue numbers field rows' := by
  have hfacts : (columnFacts field.sourceColumn rows).Perm (columnFacts field.sourceColumn rows') :=
    (h.filterMap _).map _
  rw [seriesValue, seriesValue, latestState_perm agreeingCell_perm hfacts]

omit [LinearOrder I] in
/-- The value of a field in the latest state is its value in the series. -/
lemma stateValue_ok (hreadable : Readable numbers fields rows) (hfield : field ∈ fields)
    {selected : Fact (String → Option String) T}
    (h : latestState (agreeingCells (fields.map IndicatorField.sourceColumn))
      (rows.filterMap IndicatorRow.fact) = some selected) :
    stateValue numbers field selected = .ok (seriesValue numbers field rows) := by
  have hcolumn := List.mem_map_of_mem (f := IndicatorField.sourceColumn) hfield
  have hpick := latestState_pick (f := fun cells : String → Option String => cells field.sourceColumn)
    (agreeingCells_apply hcolumn) (rows.filterMap IndicatorRow.fact)
  rw [h, Option.map_some] at hpick
  rw [seriesValue, columnFacts, hpick, Option.bind_some, stateValue]
  change _ = Except.ok (if selected.availabilityStatus = .available then _ else _)
  split
  · obtain ⟨value, hvalue⟩ := cells_latestState
      (P := fun cells : String → Option String => ∃ value, normalizeIndicatorValue numbers
        (cells field.sourceColumn) field.sourceUnit = .ok value)
      (fun w ws hw _ => by
        rw [agreeingCells_apply hcolumn, agreeingCell]
        split
        · exact hw
        · exact ⟨none, rfl⟩)
      (fun fact hfact => by
        obtain ⟨row, hrow, hfact⟩ := List.mem_filterMap.mp hfact
        obtain ⟨session, -, rfl⟩ := Option.map_eq_some_iff.mp hfact
        exact hreadable row hrow field hfield) h
    rw [Fact.pick, hvalue]
    rfl
  · rfl

omit [LinearOrder I] in
lemma sessions_facts (agree : (String → Option String) → List (String → Option String) →
      String → Option String) (rows : List (IndicatorRow I T)) :
    ((sortBy Fact.order (agreeingObservationStates agree (rows.filterMap IndicatorRow.fact))).map
      Fact.stateEffectiveSession).toFinset.sort = sessionsOf rows := by
  unfold sessionsOf
  congr 1
  ext session
  rw [List.mem_toFinset, List.mem_toFinset, List.mem_map, List.mem_filterMap]
  constructor
  · rintro ⟨state, hstate, rfl⟩
    obtain ⟨first, rest, hgroup, -⟩ := mem_agreeingObservationStates.mp (mem_sortBy.mp hstate)
    have hfirst : first ∈ (rows.filterMap IndicatorRow.fact).filter fun row =>
        row.groupKey = state.groupKey := hgroup ▸ List.mem_cons_self
    obtain ⟨hfirst, hkey⟩ := List.mem_filter.mp hfirst
    obtain ⟨row, hrow, hfact⟩ := List.mem_filterMap.mp hfirst
    obtain ⟨session, hsession, rfl⟩ := Option.map_eq_some_iff.mp hfact
    simp only [Fact.groupKey, decide_eq_true_eq, Prod.mk.injEq] at hkey
    rw [← hkey.2.2.2]
    exact ⟨row, hrow, hsession⟩
  · rintro ⟨row, hrow, hsession⟩
    let fact : Fact (String → Option String) T := ⟨row.sourceReportPeriod, row.sourcePublishedDate,
      session, row.availabilityStatus, row.observationEventAt, row.cells⟩
    have hfact : fact ∈ rows.filterMap IndicatorRow.fact :=
      List.mem_filterMap.mpr ⟨row, hrow, by rw [IndicatorRow.fact, hsession]; rfl⟩
    cases hgroup : (rows.filterMap IndicatorRow.fact).filter fun row =>
        row.groupKey = fact.groupKey with
    | nil =>
      have hmem : fact ∈ (rows.filterMap IndicatorRow.fact).filter fun row =>
          row.groupKey = fact.groupKey := List.mem_filter.mpr ⟨hfact, decide_eq_true rfl⟩
      rw [hgroup] at hmem
      cases hmem
    | cons first rest =>
      have hfirst : first ∈ (rows.filterMap IndicatorRow.fact).filter fun row =>
          row.groupKey = fact.groupKey := hgroup ▸ List.mem_cons_self
      have hkey := of_decide_eq_true (List.mem_filter.mp hfirst).2
      have hstate : (agreeingState agree first rest).groupKey = fact.groupKey := by
        rw [groupKey_agreeingState, hkey]
      refine ⟨agreeingState agree first rest, mem_sortBy.mpr
        (mem_agreeingObservationStates.mpr ⟨first, rest, hstate ▸ hgroup, rfl⟩), ?_⟩
      simp only [Fact.groupKey, Prod.mk.injEq] at hstate
      exact hstate.2.2.2

omit [LinearOrder I] in
lemma sameRow_groupKey {columns : List String} (a b : Fact (String → Option String) T)
    (h : sameRow columns a b = true) : a.groupKey = b.groupKey := by
  simp only [sameRow, decide_eq_true_eq] at h
  exact h.1

omit [LinearOrder I] [LinearOrder T] in
lemma filter_facts (rows : List (IndicatorRow I T)) (session : CalendarDate) :
    (rows.filterMap IndicatorRow.fact).filter (·.stateEffectiveSession ≤ session) =
      (rows.filter fun row => row.stateEffectiveSession.any (· ≤ session)).filterMap
        IndicatorRow.fact := by
  rw [List.filter_filterMap, List.filterMap_filter]
  refine List.filterMap_congr fun row _ => ?_
  unfold IndicatorRow.fact
  cases row.stateEffectiveSession with
  | none => rfl
  | some day => by_cases hle : day ≤ session <;> simp [hle, -not_le]

omit [LinearOrder I] in
/-- The transitions of an instrument, from the values of the series -/
lemma instrumentTransitions_ok (hreadable : Readable numbers fields rows) :
    instrumentTransitions numbers fields rows instrumentId =
      .ok ((sessionsOf rows).map fun session => ⟨instrumentId, session, fields.map fun field =>
        seriesValue numbers field
          (rows.filter fun row => row.stateEffectiveSession.any (· ≤ session))⟩) := by
  let columns := fields.map IndicatorField.sourceColumn
  let facts := sortBy Fact.order
    (agreeingObservationStates (agreeingCells columns) (rows.filterMap IndicatorRow.fact))
  let expected : CalendarDate → Transition I N := fun session =>
    ⟨instrumentId, session, fields.map fun field => seriesValue numbers field
      (rows.filter fun row => row.stateEffectiveSession.any (· ≤ session))⟩
  have hselected : ∀ session, selectedAt (sameRow columns) facts ∅ session =
      latestState (agreeingCells columns) ((rows.filter fun row =>
        row.stateEffectiveSession.any (· ≤ session)).filterMap IndicatorRow.fact) := fun session => by
    rw [selectedAt_eq sameRow_groupKey, filter_facts]
  have htransition : ∀ session selected, selectedAt (sameRow columns) facts ∅ session = some selected →
      (do return (⟨instrumentId, session, ← fields.mapM fun field =>
        stateValue numbers field selected⟩ : Transition I N)) = .ok (expected session) := by
    intro session selected hstate
    rw [hselected] at hstate
    have hvisible : Readable numbers fields (rows.filter fun row =>
        row.stateEffectiveSession.any (· ≤ session)) := fun row hrow =>
      hreadable row (List.mem_filter.mp hrow).1
    have hvalues := mapM_ok fun field hfield => stateValue_ok hvisible hfield hstate
    rw [hvalues]
    rfl
  have hfacts : facts.Pairwise fun a b => a.stateEffectiveSession ≤ b.stateEffectiveSession :=
    (sortBy_pairwise Fact.order _).imp fun {a b : Fact _ T} (hle : a.order ≤ b.order) =>
      (Prod.Lex.toLex_le_toLex.mp hle).elim le_of_lt fun h => h.1.le
  obtain ⟨transitions, hloop, hall⟩ := stateLoop_ok hfacts
    (Finset.sortedLT_sort (rows.filterMap IndicatorRow.stateEffectiveSession).toFinset).pairwise
    (fun session hsession => by
      have hsome : (selectedAt (sameRow columns) facts ∅ session).isSome := by
        rw [hselected]
        refine latestState_isSome fun hnil => ?_
        obtain ⟨row, hrow, hday⟩ := List.mem_filterMap.mp
          (List.mem_toFinset.mp ((Finset.mem_sort _).mp hsession))
        have hvisible : row ∈ rows.filter fun row => row.stateEffectiveSession.any (· ≤ session) :=
          List.mem_filter.mpr ⟨hrow, by simp [hday]⟩
        have hfact := List.filterMap_eq_nil_iff.mp hnil row hvisible
        rw [IndicatorRow.fact, hday] at hfact
        cases hfact
      obtain ⟨selected, hstate⟩ := Option.isSome_iff_exists.mp hsome
      exact ⟨selected, expected session, hstate, htransition session selected hstate⟩)
  have htransitions : transitions = (sessionsOf rows).map expected := by
    have hequal : List.Forall₂ (fun session transition => expected session = transition)
        (sessionsOf rows) transitions := hall.imp fun session transition ⟨selected, hstate, hrow⟩ =>
      Except.ok.inj ((htransition session selected hstate).symm.trans hrow)
    rw [← List.forall₂_map_left_iff (f := expected) (R := Eq), List.forall₂_eq_eq_eq] at hequal
    exact hequal.symm
  rw [instrumentTransitions, sessions_facts, ← htransitions]
  exact hloop

end Series

end ThesisTrace.IndicatorSeries
