import ThesisTrace.Data.FinancialStates
import ThesisTrace.Library.FirstError
import ThesisTrace.Library.Windows
import Mathlib.Data.List.Dedup

/-!
# Transitions follow what is known

The transitions that are computed from rows give each field at each session the value that the
latest visible rows have for it, whether they come from lists or from tables.
-/

namespace ThesisTrace.FinancialSeries
open Transaction AsOf

variable {F S I V T M : Type}

/-! ### Cells -/

section Cells
variable (texts : DecimalTexts V)

/-- The value and the window of a field for the latest rows of each period. -/
def cellAt (projection : FieldProjection F) (latest : Latest S I V T) :
    Except FinancialSeriesError (Option V × Option ReportPeriod) :=
  if projection.periodSelection = .ttm then
    (fun value => (value, if value.isSome then
      latest.current.map FinancialRow.sourceReportPeriod else none)) <$>
        ttmValue texts projection latest
  else .ok (latest.current.bind projection.figure, none)

lemma cellAt_congr {projection : FieldProjection F} {latest latest' : Latest S I V T}
    (h : ∀ period, latest.lookup period = latest'.lookup period) :
    cellAt texts projection latest = cellAt texts projection latest' := by
  have hlookup : latest.lookup = latest'.lookup := funext h
  have hcomponents : latest.components = latest'.components := by
    unfold Latest.components
    rw [hlookup]
  unfold cellAt ttmValue
  rw [current_congr h, hcomponents]

@[simp] lemma cellAt_empty (projection : FieldProjection F) :
    cellAt texts projection (latestOf ([] : List (FinancialRow S I V T))) = .ok (none, none) := by
  unfold cellAt ttmValue
  split_ifs <;> rfl

end Cells

/-! ### Fields of a group -/

section Groups
variable [DecidableEq F] {projections : List (FieldProjection F)} {projection : FieldProjection F}

lemma projectedValues_eq {W : Type} {value : FieldProjection F → Option W}
    (hnodup : (projections.map FieldProjection.fieldId).Nodup) (hmem : projection ∈ projections) :
    projectedValues projections value projection.fieldId = value projection := by
  have hsome : (projections.find? fun other => other.fieldId = projection.fieldId).isSome :=
    List.find?_isSome.mpr ⟨projection, hmem, by simp⟩
  obtain ⟨other, hother⟩ := Option.isSome_iff_exists.mp hsome
  have hsame : other = projection := List.inj_on_of_nodup_map hnodup
    (List.mem_of_find?_eq_some hother) hmem (by simpa using List.find?_some hother)
  rw [projectedValues, hother, hsame, Option.bind_some]

/-- The values that a loop along the projections pairs with their fields. -/
lemma lookup_mapM {ε W : Type} {value : FieldProjection F → Except ε W} {values : List (F × W)}
    (hnodup : (projections.map FieldProjection.fieldId).Nodup)
    (h : projections.mapM (fun projection => do
      let value ← value projection
      pure (projection.fieldId, value)) = .ok values) (hmem : projection ∈ projections) :
    ∃ w, value projection = .ok w ∧ values.lookup projection.fieldId = some w := by
  induction projections generalizing values with
  | nil => cases hmem
  | cons head rest ih =>
    obtain ⟨hnotin, hnodup⟩ := List.nodup_cons.mp hnodup
    simp only [List.mapM_cons, bind_ok_iff, pure_ok_iff] at h
    obtain ⟨_, ⟨w, hw, rfl⟩, tail, htail, rfl⟩ := h
    rcases List.mem_cons.mp hmem with rfl | hin
    · exact ⟨w, hw, by rw [List.lookup_cons, BEq.rfl]⟩
    · obtain ⟨w', hw', hlookup⟩ := ih hnodup htail hin
      refine ⟨w', hw', ?_⟩
      have hne : projection.fieldId ≠ head.fieldId := fun heq =>
        hnotin (heq ▸ List.mem_map_of_mem hin)
      rw [List.lookup_cons, beq_false_of_ne hne]
      exact hlookup

end Groups

/-! ### Transitions of rows and tables -/

section Transitions
variable [DecidableEq F] [LinearOrder S] [LinearOrder I] [LinearOrder T] (texts : DecimalTexts V)
variable {rows : List (FinancialRow S I V T)} {projections : List (FieldProjection F)}
variable {instrumentIds : List I}

/-- The aligned cell of a field. -/
def transitionCell (transitions : List (Transition F S I V)) (session : S) (instrumentId : I)
    (fieldId : F) : Option V × Option ReportPeriod :=
  ((transitionAt transitions session instrumentId).bind fun at_ => at_.values fieldId,
    (transitionAt transitions session instrumentId).bind fun at_ => at_.windows fieldId)

/-- Transitions give each field the value of the visible rows. -/
structure Tracks (transitions : List (Transition F S I V)) (rows : List (FinancialRow S I V T))
    (projections : List (FieldProjection F)) (selection : PeriodSelection) (instrumentId : I) :
    Prop where
  nodup : ((transitions.filter fun transition =>
    transition.instrumentId = instrumentId).map Transition.session).Nodup
  cells : ∀ session, ∀ projection ∈ projections,
    cellAt texts projection (latestOf (visibleRows selection rows instrumentId session)) =
      .ok (transitionCell transitions session instrumentId projection.fieldId)

lemma mem_of_stateChanges {selection : PeriodSelection}
    {entry : FinancialRow S I V T × Latest S I V T}
    (h : entry ∈ stateChanges (acceptedRows selection instrumentIds rows)) : entry.1 ∈ rows := by
  have hmem := List.mem_map_of_mem (f := Prod.fst) ((lastOfRuns_sublist _).subset h)
  rw [map_fst_scanGroups] at hmem
  exact (mem_acceptedRows.mp hmem).1

lemma stateChanges_strict {selection : PeriodSelection} :
    (stateChanges (acceptedRows selection instrumentIds rows)).Pairwise fun x y =>
      x.1.instrumentSession < y.1.instrumentSession := by
  refine @lastOfRuns_strict _ _ _ (fun entry : FinancialRow S I V T × Latest S I V T =>
    entry.1.instrumentSession) _ ?_
  have hmap := map_fst_scanGroups Latest.add FinancialRow.instrumentId ∅ none
    (acceptedRows selection instrumentIds rows)
  have hsorted := @acceptedRows_instrumentSession _ _ _ _ selection instrumentIds rows _ _ _
  rw [← hmap, List.pairwise_map] at hsorted
  exact hsorted

section StateChanges
variable {selection : PeriodSelection} {instrumentId : I}
  {g : FinancialRow S I V T × Latest S I V T → Transition F S I V}
  (hg : ∀ entry, toLex ((g entry).instrumentId, (g entry).session) = entry.1.instrumentSession)
  {transitions : List (Transition F S I V)}
  (hperm : (transitions.filter fun transition => transition.instrumentId = instrumentId).Perm
    (((stateChanges (acceptedRows selection instrumentIds rows)).map g).filter
      fun transition => transition.instrumentId = instrumentId))
include hg hperm

omit [DecidableEq F] in
lemma sessions_nodup_stateChanges : ((transitions.filter fun transition =>
    transition.instrumentId = instrumentId).map Transition.session).Nodup :=
  @sessions_nodup _ _ _ _ _ _ _ _ _ _ (fun entry : FinancialRow S I V T × Latest S I V T =>
    entry.1.instrumentSession) stateChanges_strict _ (fun entry _ => hg entry) hperm

omit [DecidableEq F] in
/-- Transitions that are made from the state changes. -/
lemma transitionAt_stateChanges (hrows : Distinguished rows) (hmem : instrumentId ∈ instrumentIds)
    (session : S) : transitionAt transitions session instrumentId =
      (visibleRows selection rows instrumentId session).getLast?.map fun row =>
        g (row, latestOf (visibleRows selection rows instrumentId session)) := by
  rw [@transitionAt_map _ _ _ _ _ _ _ _ _ _ (fun entry : FinancialRow S I V T × Latest S I V T =>
    entry.1.instrumentSession) stateChanges_strict _ (fun entry _ => hg entry) hperm session,
    stateChanges_at hrows hmem, Option.map_map]
  rfl

end StateChanges

lemma stateTransitionsRows_tracks {selection : PeriodSelection} (hselection : selection ≠ .ttm)
    {annual : Bool} (hannual : (if annual then .annual else .latestReported) = selection)
    (hprojections : ∀ projection ∈ projections, projection.periodSelection = selection)
    (hnodup : (projections.map FieldProjection.fieldId).Nodup) (hrows : Distinguished rows)
    {instrumentId : I} (hmem : instrumentId ∈ instrumentIds) :
    Tracks texts (stateTransitionsRows rows projections instrumentIds annual) rows projections
      selection instrumentId := by
  unfold stateTransitionsRows
  rw [hannual]
  refine ⟨sessions_nodup_stateChanges (fun _ => rfl) ((List.mergeSort_perm _ _).filter _),
    fun session projection hprojection => ?_⟩
  rw [transitionCell, transitionAt_stateChanges (fun _ => rfl)
    ((List.mergeSort_perm _ _).filter _) hrows hmem session]
  have hcell : cellAt texts projection (latestOf (visibleRows selection rows instrumentId session)) =
      .ok ((latestOf (visibleRows selection rows instrumentId session)).current.bind
        projection.figure, none) := by
    unfold cellAt
    rw [hprojections projection hprojection, if_neg hselection]
  rw [hcell]
  cases hlast : (visibleRows selection rows instrumentId session).getLast? with
  | none =>
    rw [List.getLast?_eq_none_iff.mp hlast]
    rfl
  | some row =>
    rw [Option.map_some, Option.bind_some, Option.bind_some]
    dsimp only
    rw [projectedValues_eq hnodup hprojection]

lemma stateTransitionsTable_tracks {selection : PeriodSelection} (hselection : selection ≠ .ttm)
    {annual : Bool} (hannual : (if annual then .annual else .latestReported) = selection)
    (hprojections : ∀ projection ∈ projections, projection.periodSelection = selection)
    (hnodup : (projections.map FieldProjection.fieldId).Nodup) (hrows : Distinguished rows)
    {instrumentId : I} (hmem : instrumentId ∈ instrumentIds) :
    Tracks texts (stateTransitionsTable rows projections instrumentIds annual) rows projections
      selection instrumentId := by
  unfold stateTransitionsTable
  rw [hannual]
  have hsorted : (((scanGroups (raise FinancialRow.sourceReportPeriod) FinancialRow.instrumentId ⊥
      none (acceptedRows selection instrumentIds rows)).filter fun entry =>
        (entry.1.sourceReportPeriod : WithBot ReportPeriod) = entry.2).map Prod.fst).Pairwise
      fun x y => x.instrumentSession ≤ y.instrumentSession := by
    refine @List.Pairwise.sublist _ _ (acceptedRows selection instrumentIds rows) _ ?_
      acceptedRows_instrumentSession
    have hmap := map_fst_scanGroups (raise FinancialRow.sourceReportPeriod)
      FinancialRow.instrumentId ⊥ none (acceptedRows selection instrumentIds rows)
    conv_rhs => rw [← hmap]
    exact List.filter_sublist.map _
  refine ⟨sessions_nodup (lastOfRuns_strict hsorted) (fun _ _ => rfl)
    ((List.mergeSort_perm _ _).filter _), fun session projection hprojection => ?_⟩
  rw [transitionCell, transitionAt_map (lastOfRuns_strict hsorted) (fun _ _ => rfl)
    ((List.mergeSort_perm _ _).filter _) session, candidates_at hrows hmem]
  unfold cellAt
  rw [hprojections projection hprojection, if_neg hselection]
  cases (latestOf (visibleRows selection rows instrumentId session)).current with
  | none => rfl
  | some row =>
    rw [Option.map_some, Option.bind_some, Option.bind_some, Option.bind_some]
    dsimp only
    rw [projectedValues_eq hnodup hprojection]

end Transitions

/-! ### Trailing twelve months -/

section Ttm
variable [DecidableEq F] [LinearOrder S] [LinearOrder I] [LinearOrder T] (texts : DecimalTexts V)
variable {rows : List (FinancialRow S I V T)} {projections : List (FieldProjection F)}
variable {instrumentIds : List I}

/-- The transition of an entry, when its values do not raise. -/
def ttmTransitionOf (projections : List (FieldProjection F))
    (entry : FinancialRow S I V T × Latest S I V T) : Transition F S I V :=
  match ttmTransition texts projections entry with
  | .ok transition => transition
  | .error _ =>
    { session := entry.1.effectiveAvailableSession
      instrumentId := entry.1.instrumentId
      values := fun _ => none
      windows := fun _ => none }

omit [LinearOrder S] [LinearOrder I] [LinearOrder T] in
lemma ttmTransitionOf_coordinates (entry : FinancialRow S I V T × Latest S I V T) :
    toLex ((ttmTransitionOf texts projections entry).instrumentId,
      (ttmTransitionOf texts projections entry).session) = entry.1.instrumentSession := by
  unfold ttmTransitionOf
  cases h : ttmTransition texts projections entry with
  | error e => rfl
  | ok transition =>
    unfold ttmTransition at h
    simp only [bind_ok_iff, pure_ok_iff] at h
    obtain ⟨_, _, rfl⟩ := h
    rfl

lemma ttmStateTransitions_ok {transitions : List (Transition F S I V)}
    (h : ttmStateTransitions texts rows projections instrumentIds = .ok transitions) :
    transitions = (stateChanges (acceptedRows .ttm instrumentIds rows)).map
        (ttmTransitionOf texts projections) ∧
      ∀ entry ∈ stateChanges (acceptedRows .ttm instrumentIds rows),
        ttmTransition texts projections entry = .ok (ttmTransitionOf texts projections entry) := by
  unfold ttmStateTransitions at h
  have hall : ∀ entry ∈ stateChanges (acceptedRows .ttm instrumentIds rows),
      ttmTransition texts projections entry = .ok (ttmTransitionOf texts projections entry) := by
    intro entry hentry
    obtain ⟨transition, htransition⟩ := mapM_ok_mem h entry hentry
    rw [ttmTransitionOf, htransition]
  rw [mapM_ok hall] at h
  exact ⟨(Except.ok.inj h).symm, hall⟩

omit [LinearOrder S] [LinearOrder I] [LinearOrder T] in
/-- A transition has the cells of its entry. -/
lemma ttmTransition_cell {entry : FinancialRow S I V T × Latest S I V T}
    {transition : Transition F S I V}
    (h : ttmTransition texts projections entry = .ok transition)
    (hnodup : (projections.map FieldProjection.fieldId).Nodup) {projection : FieldProjection F}
    (hmem : projection ∈ projections) (hselection : projection.periodSelection = .ttm) :
    cellAt texts projection entry.2 =
      .ok (transition.values projection.fieldId, transition.windows projection.fieldId) := by
  unfold ttmTransition at h
  simp only [bind_ok_iff, pure_ok_iff] at h
  obtain ⟨values, hvalues, rfl⟩ := h
  obtain ⟨value, hvalue, hlookup⟩ := @lookup_mapM _ _ _ _ _ _ (fun projection =>
    ttmValue texts projection entry.2) _ hnodup
      (by simpa only [bind_ok_iff, pure_ok_iff] using hvalues) hmem
  unfold cellAt
  rw [if_pos hselection, hvalue]
  simp only [hlookup, Option.join_some]
  rfl

/-- Transitions that hold the entries of an instrument follow its visible rows. -/
lemma tracks_of_entries {transitions : List (Transition F S I V)} {instrumentId : I}
    (hperm : (transitions.filter fun transition => transition.instrumentId = instrumentId).Perm
      (((stateChanges (acceptedRows .ttm instrumentIds rows)).map
        (ttmTransitionOf texts projections)).filter
          fun transition => transition.instrumentId = instrumentId))
    (hall : ∀ entry ∈ stateChanges (acceptedRows .ttm instrumentIds rows),
      ttmTransition texts projections entry = .ok (ttmTransitionOf texts projections entry))
    (hprojections : ∀ projection ∈ projections, projection.periodSelection = .ttm)
    (hnodup : (projections.map FieldProjection.fieldId).Nodup) (hrows : Distinguished rows)
    (hmem : instrumentId ∈ instrumentIds) :
    Tracks texts transitions rows projections .ttm instrumentId := by
  refine ⟨sessions_nodup_stateChanges (ttmTransitionOf_coordinates texts) hperm,
    fun session projection hprojection => ?_⟩
  rw [transitionCell,
    transitionAt_stateChanges (ttmTransitionOf_coordinates texts) hperm hrows hmem session]
  cases hlast : (visibleRows .ttm rows instrumentId session).getLast? with
  | none =>
    rw [List.getLast?_eq_none_iff.mp hlast]
    exact cellAt_empty texts projection
  | some row =>
    have hentry := @stateChanges_at _ _ _ _ _ _ _ .ttm _ _ _ session hrows hmem
    rw [hlast] at hentry
    have hin := List.mem_of_mem_filter (List.mem_of_getLast? hentry)
    exact ttmTransition_cell texts (hall _ hin) hnodup hprojection (hprojections _ hprojection)

lemma ttmStateTransitions_tracks {transitions : List (Transition F S I V)}
    (h : ttmStateTransitions texts rows projections instrumentIds = .ok transitions)
    (hprojections : ∀ projection ∈ projections, projection.periodSelection = .ttm)
    (hnodup : (projections.map FieldProjection.fieldId).Nodup) (hrows : Distinguished rows)
    {instrumentId : I} (hmem : instrumentId ∈ instrumentIds) :
    Tracks texts transitions rows projections .ttm instrumentId := by
  obtain ⟨rfl, hall⟩ := ttmStateTransitions_ok texts h
  exact tracks_of_entries texts (.refl _) hall hprojections hnodup hrows hmem

/-- The slices of the sorted table are computed by themselves. -/
lemma ttmStateTransitionsTable_tracks {transitions : List (Transition F S I V)}
    (h : ttmStateTransitionsTable texts rows projections instrumentIds = .ok transitions)
    (hprojections : ∀ projection ∈ projections, projection.periodSelection = .ttm)
    (hnodup : (projections.map FieldProjection.fieldId).Nodup) (hrows : Distinguished rows)
    {instrumentId : I} (hmem : instrumentId ∈ instrumentIds) :
    Tracks texts transitions rows projections .ttm instrumentId := by
  unfold ttmStateTransitionsTable at h
  simp only [bind_ok_iff, pure_ok_iff] at h
  obtain ⟨slices, hslices, rfl⟩ := h
  set ordered := (rows.filter fun row => row.instrumentId ∈ instrumentIds).mergeSort fun x y =>
    x.instrumentId ≤ y.instrumentId with hordered
  have hin : ∀ row, row ∈ ordered ↔ row ∈ rows ∧ row.instrumentId ∈ instrumentIds := by
    intro row
    rw [hordered, List.mem_mergeSort, List.mem_filter, decide_eq_true_eq]
  have hslice : ∀ i row, row ∈ ordered.filter (fun row => row.instrumentId = i) ↔
      (row ∈ rows ∧ row.instrumentId ∈ instrumentIds) ∧ row.instrumentId = i := by
    intro i row
    rw [List.mem_filter, hin, decide_eq_true_eq]
  let entries : I → List (FinancialRow S I V T × Latest S I V T) := fun i =>
    stateChanges (acceptedRows .ttm instrumentIds (ordered.filter fun row => row.instrumentId = i))
  have hok : ∀ i ∈ (ordered.map FinancialRow.instrumentId).dedup,
      ttmStateTransitions texts (ordered.filter fun row => row.instrumentId = i) projections
        instrumentIds = .ok ((entries i).map (ttmTransitionOf texts projections)) := by
    intro i hi
    obtain ⟨slice, hslice⟩ := mapM_ok_mem hslices i hi
    rw [hslice, (ttmStateTransitions_ok texts hslice).1]
  have hentries : ∀ i, ∀ entry ∈ entries i, entry.1.instrumentId = i := fun i entry hentry =>
    ((hslice i _).mp (mem_of_stateChanges hentry)).2
  have hself : ∀ i, ((entries i).map (ttmTransitionOf texts projections)).filter
      (fun transition => transition.instrumentId = instrumentId) =
      if i = instrumentId then (entries i).map (ttmTransitionOf texts projections) else [] := by
    intro i
    have hcoordinate : ∀ transition ∈ (entries i).map (ttmTransitionOf texts projections),
        transition.instrumentId = i := by
      intro transition htransition
      obtain ⟨entry, hentry, rfl⟩ := List.mem_map.mp htransition
      have hkey := congrArg (fun key => (ofLex key).1)
        (@ttmTransitionOf_coordinates _ _ _ _ _ _ texts projections entry)
      exact hkey.trans (hentries i entry hentry)
    split_ifs with heq
    · exact List.filter_eq_self.mpr fun transition htransition =>
        decide_eq_true ((hcoordinate transition htransition).trans heq)
    · refine List.filter_eq_nil_iff.mpr fun transition htransition => ?_
      rw [decide_eq_true_eq, hcoordinate transition htransition]
      exact heq
  have hperm : (slices.flatten.filter fun transition =>
      transition.instrumentId = instrumentId).Perm
        (((entries instrumentId).map (ttmTransitionOf texts projections)).filter
          fun transition => transition.instrumentId = instrumentId) := by
    rw [mapM_ok hok] at hslices
    obtain rfl := Except.ok.inj hslices
    rw [← List.flatMap_def, List.filter_flatMap]
    simp only [hself]
    rw [Windows.flatMap_ite (List.nodup_dedup _), if_pos trivial]
    split_ifs with hpresent
    · exact .refl _
    · have hempty : entries instrumentId = [] := by
        refine List.eq_nil_iff_forall_not_mem.mpr fun entry hentry => hpresent ?_
        have hrow := (hslice instrumentId _).mp (mem_of_stateChanges hentry)
        rw [List.mem_dedup, ← hrow.2]
        exact List.mem_map_of_mem ((hin _).mpr hrow.1)
      rw [hempty]
      exact .refl _
  have hall : ∀ entry ∈ entries instrumentId,
      ttmTransition texts projections entry = .ok (ttmTransitionOf texts projections entry) := by
    intro entry hentry
    have hrow := (hslice instrumentId _).mp (mem_of_stateChanges hentry)
    have hpresent : instrumentId ∈ (ordered.map FinancialRow.instrumentId).dedup := by
      rw [List.mem_dedup, ← hrow.2]
      exact List.mem_map_of_mem ((hin _).mpr hrow.1)
    exact (ttmStateTransitions_ok texts (hok _ hpresent)).2 entry hentry
  have hsubset : ordered.filter (fun row => row.instrumentId = instrumentId) ⊆ rows :=
    fun row hrow => ((hslice instrumentId row).mp hrow).1.1
  have htracks := tracks_of_entries texts hperm hall hprojections hnodup (hrows.mono hsubset) hmem
  refine ⟨htracks.nodup, fun session projection hprojection => ?_⟩
  rw [← htracks.cells session projection hprojection]
  refine cellAt_congr texts fun period => (lookup_visible_congr hrows
    (fun row hrow _ => hsubset hrow) (hrows.mono hsubset) fun row hrow hvisible _ => ?_).symm
  have hinstrument := hvisible.instrumentId_eq
  exact (hslice instrumentId row).mpr ⟨⟨hrow, hinstrument ▸ hmem⟩, hinstrument⟩

end Ttm

/-! ### Groups of projections -/

section Groups
variable [DecidableEq F] [LinearOrder S] [LinearOrder I] [LinearOrder T] (texts : DecimalTexts V)
variable {rows : List (FinancialRow S I V T)} {projections : List (FieldProjection F)}
variable {instrumentIds : List I} {selection : PeriodSelection}
variable {transitions : List (Transition F S I V)}

lemma annual_selection (h : selection ≠ .ttm) :
    (if (decide (selection = .annual) : Bool) then PeriodSelection.annual else .latestReported) =
      selection := by
  cases selection with
  | annual => rfl
  | latestReported => rfl
  | ttm => exact absurd rfl h

theorem projectionTransitionsRows_tracks
    (h : projectionTransitionsRows texts rows projections selection instrumentIds = .ok transitions)
    (hprojections : ∀ projection ∈ projections, projection.periodSelection = selection)
    (hnodup : (projections.map FieldProjection.fieldId).Nodup) (hrows : Distinguished rows)
    {instrumentId : I} (hmem : instrumentId ∈ instrumentIds) :
    Tracks texts transitions rows projections selection instrumentId := by
  unfold projectionTransitionsRows at h
  split_ifs at h with hselection
  · subst hselection
    exact ttmStateTransitions_tracks texts h hprojections hnodup hrows hmem
  · cases h
    exact stateTransitionsRows_tracks texts hselection (annual_selection hselection) hprojections
      hnodup hrows hmem

theorem projectionTransitions_tracks
    (h : projectionTransitions texts rows projections selection instrumentIds = .ok transitions)
    (hprojections : ∀ projection ∈ projections, projection.periodSelection = selection)
    (hnodup : (projections.map FieldProjection.fieldId).Nodup) (hrows : Distinguished rows)
    {instrumentId : I} (hmem : instrumentId ∈ instrumentIds) :
    Tracks texts transitions rows projections selection instrumentId := by
  unfold projectionTransitions at h
  split_ifs at h with hselection
  · subst hselection
    exact ttmStateTransitionsTable_tracks texts h hprojections hnodup hrows hmem
  · cases h
    exact stateTransitionsTable_tracks texts hselection (annual_selection hselection) hprojections
      hnodup hrows hmem

end Groups

end ThesisTrace.FinancialSeries
