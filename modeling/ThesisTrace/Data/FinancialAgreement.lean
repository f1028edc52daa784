import ThesisTrace.Data.FinancialConsensus
import ThesisTrace.Data.FinancialTracking

/-!
# What the resolvers return

A resolver that returns gives each field, session and instrument the cell of the rows that are
visible then, along lists as well as on tables.
-/

namespace ThesisTrace.FinancialSeries
open Transaction AsOf

variable {F S I V T M : Type}

/-! ### Reads -/

section Reads
variable [LinearOrder S] [LinearOrder I] [LinearOrder T] [DecidableEq V]
variable {family : FinancialFamily S I V T} {endpoint : Endpoint} {columns : List String}
variable {sessions : List S} {instrumentIds : List I} {table : List (FinancialRow S I V T)}

/-- The rows that are read are rows of the family, or agreed on by such rows. -/
lemma readFinancialTable_subset (hsettled : family.Settled)
    (h : family.readFinancialTable endpoint columns sessions instrumentIds = .ok table) :
    table ⊆ family.projectedRows endpoint := by
  unfold FinancialFamily.readFinancialTable at h
  simp only [bind_ok_iff, pure_ok_iff, found_ok_iff] at h
  obtain ⟨start, -, through, -, _, -, _, -, _, -, rfl⟩ := h
  intro row hrow
  have hprojected := mem_compactFinancialHistory (List.mem_mergeSort.mp hrow)
  exact (hsettled.mem_projectAgreeing.mp hprojected).1

/-- The rows that are read know the same latest rows as the family, at every session of the
read. -/
lemma readFinancialTable_latest (hsettled : family.Settled)
    (h : family.readFinancialTable endpoint columns sessions instrumentIds = .ok table) :
    Distinguished table ∧ ∀ first ∈ sessions.head?, ∀ last ∈ sessions.getLast?,
      ∀ selection, ∀ instrumentId ∈ instrumentIds, ∀ session, first ≤ session → session ≤ last →
        ∀ period, (latestOf (visibleRows selection table instrumentId session)).lookup period =
          (latestOf (visibleRows selection (family.projectedRows endpoint) instrumentId
            session)).lookup period := by
  have hsubset := readFinancialTable_subset hsettled h
  have hdistinguished := family.distinguished endpoint
  refine ⟨hdistinguished.mono hsubset, ?_⟩
  unfold FinancialFamily.readFinancialTable at h
  simp only [bind_ok_iff, pure_ok_iff, found_ok_iff] at h
  obtain ⟨start, hstart, through, hthrough, _, -, _, -, _, -, rfl⟩ := h
  intro first hfirst last hlast selection instrumentId hmem session hle hge period
  obtain rfl : start = first := Option.some.inj (hstart.symm.trans hfirst)
  obtain rfl : through = last := Option.some.inj (hthrough.symm.trans hlast)
  set rows := projectAgreeingFinancialValues ((family.rows endpoint).filter fun row =>
    row.instrumentId ∈ instrumentIds ∧ row.effectiveAvailableSession ≤ through) through with hrows
  have hprojected : ∀ row ∈ rows, row ∈ family.projectedRows endpoint := fun row hrow =>
    (hsettled.mem_projectAgreeing.mp hrow).1
  refine lookup_visible_congr hdistinguished (fun row hrow _ => hsubset hrow)
    (hdistinguished.mono hsubset) fun row hrow hvisible hall => ?_
  have hinRows : ∀ other ∈ family.projectedRows endpoint,
      Visible selection instrumentId session period other → other ∈ rows := by
    intro other hother hothervisible
    refine hsettled.mem_projectAgreeing.mpr ⟨hother, ?_, hothervisible.2.1.trans hge⟩
    rw [hothervisible.instrumentId_eq]
    exact hmem
  refine List.mem_mergeSort.mpr (greatest_mem_compact (hdistinguished.mono hprojected) hle
    (hinRows row hrow hvisible) hvisible ?_)
  exact fun other hother => hall other (hprojected other hother)

end Reads

/-! ### Columns -/

section Columns
variable [DecidableEq F] [LinearOrder S] [LinearOrder I] [LinearOrder T] [DecidableEq V]
variable (texts : DecimalTexts V)
variable (family : FinancialFamily S I V T)

/-- The cell of a field at a session and an instrument: what the visible rows say. -/
def seriesAt (projection : FieldProjection F) (session : S) (instrumentId : I) :
    Except FinancialSeriesError (Option V × Option ReportPeriod) :=
  cellAt texts projection (latestOf
    (visibleRows projection.periodSelection (family.projectedRows projection.endpoint) instrumentId
      session))

/-- The column of a field. -/
def seriesColumn (projection : FieldProjection F) (sessions : List S) (instrumentIds : List I) :
    Except FinancialSeriesError (AlignedColumn S I V) :=
  (sessions.flatMap fun session => instrumentIds.map fun instrumentId =>
    (session, instrumentId)).mapM fun coordinate => do
      let cell ← seriesAt texts family projection coordinate.1 coordinate.2
      pure (coordinate, cell)

variable {texts family}

omit [DecidableEq F] in
/-- Transitions whose cells are those of the series align to its columns. -/
lemma alignProjectionGroup_columns {transitions : List (Transition F S I V)}
    {projections : List (FieldProjection F)} {sessions : List S} {instrumentIds : List I}
    (h : ∀ projection ∈ projections, ∀ session ∈ sessions, ∀ instrumentId ∈ instrumentIds,
      seriesAt texts family projection session instrumentId =
        .ok (transitionCell transitions session instrumentId projection.fieldId)) :
    projections.mapM (fun projection => do
      let column ← seriesColumn texts family projection sessions instrumentIds
      pure (projection.fieldId, column)) =
        .ok (alignProjectionGroup transitions projections sessions instrumentIds) := by
  refine mapM_ok fun projection hprojection => ?_
  have hcolumn : seriesColumn texts family projection sessions instrumentIds =
      .ok ((sessions.flatMap fun session => instrumentIds.map fun instrumentId =>
        (session, instrumentId)).map fun coordinate => (coordinate,
          transitionCell transitions coordinate.1 coordinate.2 projection.fieldId)) := by
    refine mapM_ok fun coordinate hcoordinate => ?_
    obtain ⟨session, hsession, hin⟩ := List.mem_flatMap.mp hcoordinate
    obtain ⟨instrumentId, hinstrumentId, rfl⟩ := List.mem_map.mp hin
    rw [h projection hprojection session hsession instrumentId hinstrumentId]
    rfl
  rw [hcolumn, List.map_flatMap]
  simp only [List.map_map]
  rfl

omit [DecidableEq F] in
/-- The transitions of a read have the cells of the series. -/
lemma seriesAt_of_tracks (hsettled : family.Settled) {endpoint : Endpoint}
    {columns : List String} {selection : PeriodSelection} {history : List S}
    {instrumentIds : List I} {table : List (FinancialRow S I V T)}
    {transitions : List (Transition F S I V)} {projections : List (FieldProjection F)}
    (hread : family.readFinancialTable endpoint columns history instrumentIds = .ok table)
    (hgroup : ∀ projection ∈ projections,
      projection.endpoint = endpoint ∧ projection.periodSelection = selection)
    {instrumentId : I} (hmem : instrumentId ∈ instrumentIds)
    (htracks : Tracks texts transitions table projections selection instrumentId)
    {first last session : S} (hfirst : history.head? = some first)
    (hlast : history.getLast? = some last) (hle : first ≤ session) (hge : session ≤ last)
    {projection : FieldProjection F} (hprojection : projection ∈ projections) :
    seriesAt texts family projection session instrumentId =
      .ok (transitionCell transitions session instrumentId projection.fieldId) := by
  obtain ⟨hendpoint, hselection⟩ := hgroup projection hprojection
  rw [← htracks.cells session projection hprojection, seriesAt, hendpoint, hselection]
  exact cellAt_congr texts fun period => ((readFinancialTable_latest hsettled hread).2 first hfirst
    last hlast selection instrumentId hmem session hle hge period).symm

end Columns

/-! ### Resolved groups -/

lemma lookup_of_mem {κ W : Type} [BEq κ] [LawfulBEq κ] {P : W → Prop} {entries : List (κ × W)}
    {key : κ} (hmem : ∃ entry ∈ entries, entry.1 = key)
    (hall : ∀ entry ∈ entries, entry.1 = key → P entry.2) :
    ∃ w, entries.lookup key = some w ∧ P w := by
  induction entries with
  | nil =>
    obtain ⟨_, hin, _⟩ := hmem
    cases hin
  | cons head rest ih =>
    obtain ⟨first, w⟩ := head
    by_cases heq : first = key
    · subst heq
      exact ⟨w, by rw [List.lookup_cons, BEq.rfl], hall _ List.mem_cons_self rfl⟩
    · rw [List.lookup_cons, beq_false_of_ne (Ne.symm heq)]
      refine ih ?_ fun entry hentry => hall entry (List.mem_cons_of_mem _ hentry)
      obtain ⟨entry, hin, hentry⟩ := hmem
      rcases List.mem_cons.mp hin with rfl | hrest
      · exact absurd hentry heq
      · exact ⟨entry, hrest, hentry⟩

section Groups
variable [DecidableEq F] [LinearOrder S] [LinearOrder I] [LinearOrder T] [DecidableEq V]
variable {texts : DecimalTexts V}
variable {families : M → FinancialFamily S I V T} {request : SeriesRequest F S I M}
variable {projections : List (FieldProjection F)}

/-- What a group of projections resolves to. -/
structure GroupResolved {W : Type} (P : FieldProjection F → W → Prop)
    (group : List (FieldProjection F)) (entries : List (F × W)) : Prop where
  sound : ∀ entry ∈ entries, ∃ projection ∈ group,
    entry.1 = projection.fieldId ∧ P projection entry.2
  complete : ∀ projection ∈ group, ∃ entry ∈ entries, entry.1 = projection.fieldId

/-- Every projection is resolved in the group of its endpoint and its selection. -/
lemma resolveGroups_ok {W : Type} {P : FieldProjection F → W → Prop} {resolved : List (F × W)}
    {resolveGroup : List (FinancialRow S I V T) → PeriodSelection → List (FieldProjection F) →
      Except FinancialSeriesError (List (F × W))}
    (hnodup : (projections.map FieldProjection.fieldId).Nodup)
    (h : resolveGroups families request projections resolveGroup = .ok resolved)
    (hgroup : ∀ endpoint rows selection group entries,
      (families request.manifestSha256).readFinancialTable endpoint
        (sourceColumns projections endpoint) request.sessions request.instrumentIds = .ok rows →
      (∀ projection ∈ group, projection.endpoint = endpoint ∧
        projection.periodSelection = selection) →
      (group.map FieldProjection.fieldId).Nodup →
      resolveGroup rows selection group = .ok entries → GroupResolved P group entries) :
    ∀ projection ∈ projections, ∃ w, resolved.lookup projection.fieldId = some w ∧ P projection w := by
  unfold resolveGroups at h
  simp only [bind_ok_iff, pure_ok_iff] at h
  obtain ⟨endpoints, hendpoints, rfl⟩ := h
  obtain ⟨hforward, hbackward⟩ := mapM_mem hendpoints
  simp only [bind_ok_iff, pure_ok_iff] at hforward hbackward
  have hgroups : ∀ endpoint rows groups,
      (families request.manifestSha256).readFinancialTable endpoint
        (sourceColumns projections endpoint) request.sessions request.instrumentIds = .ok rows →
      (projectionGroups projections endpoint).mapM (fun group =>
        resolveGroup rows group.1 group.2) = .ok groups →
      (∀ group ∈ projectionGroups projections endpoint, ∃ entries ∈ groups,
        GroupResolved P group.2 entries) ∧
      ∀ entries ∈ groups, ∃ group ∈ projectionGroups projections endpoint,
        GroupResolved P group.2 entries := by
    intro endpoint rows groups hread hmap
    have hresolved : ∀ group ∈ projectionGroups projections endpoint, ∀ entries,
        resolveGroup rows group.1 group.2 = .ok entries → GroupResolved P group.2 entries := by
      intro group hin entries hentries
      obtain ⟨selection, _, rfl⟩ := List.mem_map.mp (List.mem_of_mem_filter hin)
      refine hgroup endpoint rows selection _ entries hread (fun projection hprojection => ?_) ?_
        hentries
      · simpa using (List.mem_filter.mp hprojection).2
      · exact hnodup.sublist (List.filter_sublist.map _)
    obtain ⟨hleft, hright⟩ := mapM_mem hmap
    constructor
    · intro group hin
      obtain ⟨entries, hentries, hok⟩ := hleft group hin
      exact ⟨entries, hentries, hresolved group hin entries hok⟩
    · intro entries hentries
      obtain ⟨group, hin, hok⟩ := hright entries hentries
      exact ⟨group, hin, hresolved group hin entries hok⟩
  intro projection hprojection
  refine lookup_of_mem ?_ fun entry hentry hfield => ?_
  · have hin : projections.filter (fun other => other.endpoint = projection.endpoint ∧
        other.periodSelection = projection.periodSelection) ≠ [] :=
      List.ne_nil_of_mem (List.mem_filter.mpr ⟨hprojection, by simp⟩)
    have hgroupMem : (projection.periodSelection, projections.filter fun other =>
        other.endpoint = projection.endpoint ∧
          other.periodSelection = projection.periodSelection) ∈
            projectionGroups projections projection.endpoint := by
      refine List.mem_filter.mpr ⟨List.mem_map.mpr ⟨projection.periodSelection, ?_, rfl⟩,
        decide_eq_true hin⟩
      cases projection.periodSelection <;> decide
    have hendpoint : projection.endpoint ∈ Endpoint.all.filter fun endpoint =>
        projectionGroups projections endpoint ≠ [] := by
      refine List.mem_filter.mpr ⟨?_, decide_eq_true (List.ne_nil_of_mem hgroupMem)⟩
      cases projection.endpoint <;> decide
    obtain ⟨_, hflat, rows, hread, groups, hmap, rfl⟩ := hforward _ hendpoint
    obtain ⟨entries, hentries, hresolved⟩ := (hgroups _ rows groups hread hmap).1 _ hgroupMem
    obtain ⟨entry, hentry, hfield⟩ := hresolved.complete projection
      (List.mem_filter.mpr ⟨hprojection, by simp⟩)
    exact ⟨entry, List.mem_flatten.mpr ⟨_, hflat, List.mem_flatten.mpr ⟨_, hentries, hentry⟩⟩, hfield⟩
  · obtain ⟨flat, hflat, hentry⟩ := List.mem_flatten.mp hentry
    obtain ⟨endpoint, _, rows, hread, groups, hmap, rfl⟩ := hbackward flat hflat
    obtain ⟨entries, hentries, hentry⟩ := List.mem_flatten.mp hentry
    obtain ⟨group, hgroupMem, hresolved⟩ := (hgroups _ rows groups hread hmap).2 entries hentries
    obtain ⟨other, hother, hsame, hP⟩ := hresolved.sound entry hentry
    obtain ⟨selection, _, rfl⟩ := List.mem_map.mp (List.mem_of_mem_filter hgroupMem)
    rw [List.inj_on_of_nodup_map hnodup (List.mem_of_mem_filter hother) hprojection
      (hsame.symm.trans hfield)] at hP
    exact hP

end Groups

/-! ### What the resolvers return -/

section Resolvers
variable [DecidableEq F] [LinearOrder S] [LinearOrder I] [LinearOrder T] [DecidableEq V]
variable (texts : DecimalTexts V) (catalog : FieldCatalog F) (families : M → FinancialFamily S I V T)
variable (request : SeriesRequest F S I M)

/-- The series of a request: each cell says what the visible rows say. -/
def seriesTable : Except FinancialSeriesError (List (F × AlignedColumn S I V)) := do
  request.validate
  let projections ← catalog.select request.fieldIds
  projections.mapM fun projection => do
    let column ← seriesColumn texts (families request.manifestSha256) projection request.sessions
      request.instrumentIds
    pure (projection.fieldId, column)

variable {texts catalog families request}

omit [DecidableEq F] in
lemma select_ok {fieldIds : List F} {projections : List (FieldProjection F)}
    (h : catalog.select fieldIds = .ok projections) :
    projections.map FieldProjection.fieldId = fieldIds ∧
      ∀ projection ∈ projections, catalog.projection projection.fieldId = some projection := by
  unfold FieldCatalog.select at h
  induction fieldIds generalizing projections with
  | nil =>
    cases h
    exact ⟨rfl, nofun⟩
  | cons fieldId fieldIds ih =>
    simp only [List.mapM_cons, bind_ok_iff, pure_ok_iff, found_ok_iff] at h
    obtain ⟨projection, hprojection, rest, hrest, rfl⟩ := h
    obtain ⟨hfields, hknown⟩ := ih hrest
    have hfield := catalog.fieldId_eq fieldId projection hprojection
    refine ⟨by rw [List.map_cons, hfield, hfields], List.forall_mem_cons.mpr ⟨?_, hknown⟩⟩
    rw [hfield, hprojection]

omit [LinearOrder S] [LinearOrder I] [LinearOrder T] [DecidableEq F] [DecidableEq V] in
lemma numericValues_eq {entries : NumericSeries S I V} {values : NumericSeries S I V}
    (h : entries.mapM (fun entry => do
      let value ← numericValue texts entry.2
      pure (entry.1, value)) = .ok values) : values = entries := by
  have hsame : ∀ entry ∈ entries, (do
      let value ← numericValue texts entry.2
      pure (entry.1, value)) = (.ok entry : Except FinancialSeriesError ((S × I) × V)) := by
    intro entry hentry
    obtain ⟨result, hresult⟩ := mapM_ok_mem h entry hentry
    simp only [bind_ok_iff, pure_ok_iff] at hresult ⊢
    obtain ⟨value, hvalue, _⟩ := hresult
    have hunchanged : value = entry.2 := by
      unfold numericValue at hvalue
      split at hvalue
      · cases hvalue
      · split_ifs at hvalue
        exact (Except.ok.inj hvalue).symm
    exact ⟨value, hvalue, by rw [hunchanged]⟩
  rw [mapM_ok (g := id) hsame, List.map_id] at h
  exact (Except.ok.inj h).symm

omit [LinearOrder T] in
lemma validate_ok {u : Unit} (h : request.validate = .ok u) :
    request.fieldIds.Nodup ∧ request.sessions.Pairwise (· < ·) := by
  rw [SeriesRequest.validate, require_ok_iff] at h
  exact ⟨h.2.1, h.2.2.2.1⟩

/-- The sessions of a request lie between its first and its last. -/
lemma between_of_mem {sessions : List S} (hsorted : sessions.Pairwise (· < ·)) {session : S}
    (hmem : session ∈ sessions) :
    ∃ first last, sessions.head? = some first ∧ sessions.getLast? = some last ∧
      first ≤ session ∧ session ≤ last := by
  have hne := List.ne_nil_of_mem hmem
  refine ⟨_, _, List.head?_eq_some_head hne, List.getLast?_eq_some_getLast hne, ?_, ?_⟩
  · have hle := hsorted.imp le_of_lt
    rw [← List.cons_head_tail hne] at hle hmem
    rcases List.mem_cons.mp hmem with heq | htail
    · exact heq.ge
    · exact (List.pairwise_cons.mp hle).1 session htail
  · exact @le_of_getLast? _ _ _ id _ (hsorted.imp le_of_lt) _ (List.getLast?_eq_some_getLast hne)
      session hmem

section Group
variable {endpoint : Endpoint} {columns : List String} {rows : List (FinancialRow S I V T)}
  {selection : PeriodSelection} {group : List (FieldProjection F)}
  (hsettled : (families request.manifestSha256).Settled)
  (hsorted : request.sessions.Pairwise (· < ·))
  (hread : (families request.manifestSha256).readFinancialTable endpoint columns request.sessions
    request.instrumentIds = .ok rows)
  (hgroup : ∀ projection ∈ group, projection.endpoint = endpoint ∧
    projection.periodSelection = selection)
  (hnodup : (group.map FieldProjection.fieldId).Nodup)
include hsettled hsorted hread hgroup

omit [DecidableEq F] in
/-- Transitions that follow the rows of a read align to the columns of the series. -/
lemma aligned_resolved {transitions : List (Transition F S I V)}
    (htracks : ∀ instrumentId ∈ request.instrumentIds,
      Tracks texts transitions rows group selection instrumentId) :
    GroupResolved (fun projection column => seriesColumn texts (families request.manifestSha256)
        projection request.sessions request.instrumentIds = .ok column) group
      (alignProjectionGroup transitions group request.sessions request.instrumentIds) := by
  have hcells : ∀ projection ∈ group, ∀ session ∈ request.sessions,
      ∀ instrumentId ∈ request.instrumentIds,
        seriesAt texts (families request.manifestSha256) projection session instrumentId =
          .ok (transitionCell transitions session instrumentId projection.fieldId) := by
    intro projection hprojection session hsession instrumentId hinstrumentId
    obtain ⟨first, last, hfirst, hlast, hle, hge⟩ := between_of_mem hsorted hsession
    exact seriesAt_of_tracks hsettled hread hgroup hinstrumentId
      (htracks instrumentId hinstrumentId) hfirst hlast hle hge hprojection
  obtain ⟨hforward, hbackward⟩ := mapM_mem (alignProjectionGroup_columns hcells)
  simp only [bind_ok_iff, pure_ok_iff] at hforward hbackward
  constructor
  · intro entry hentry
    obtain ⟨projection, hprojection, column, hcolumn, rfl⟩ := hbackward entry hentry
    exact ⟨projection, hprojection, rfl, hcolumn⟩
  · intro projection hprojection
    obtain ⟨entry, hentry, column, _, rfl⟩ := hforward projection hprojection
    exact ⟨_, hentry, rfl⟩

include hnodup

lemma resolveProjectionGroupTable_resolved {entries : List (F × AlignedColumn S I V)}
    (h : resolveProjectionGroupTable texts request rows selection group = .ok entries) :
    GroupResolved (fun projection column => seriesColumn texts (families request.manifestSha256)
      projection request.sessions request.instrumentIds = .ok column) group entries := by
  unfold resolveProjectionGroupTable at h
  simp only [bind_ok_iff, pure_ok_iff] at h
  obtain ⟨transitions, htransitions, rfl⟩ := h
  exact aligned_resolved hsettled hsorted hread hgroup fun instrumentId hinstrumentId =>
    projectionTransitions_tracks texts htransitions (fun p hp => (hgroup p hp).2) hnodup
      (readFinancialTable_latest hsettled hread).1 hinstrumentId

/-- The list path returns the valid values of the columns. -/
lemma resolveProjectionGroup_resolved {entries : List (F × NumericSeries S I V)}
    (h : resolveProjectionGroup texts request rows selection group = .ok entries) :
    GroupResolved (fun projection series => ∃ column, seriesColumn texts
      (families request.manifestSha256) projection request.sessions request.instrumentIds =
        .ok column ∧ series = validValues column) group entries := by
  unfold resolveProjectionGroup at h
  obtain ⟨transitions, htransitions, h⟩ := bind_ok_iff.mp h
  have haligned := aligned_resolved hsettled hsorted hread hgroup fun instrumentId hinstrumentId =>
    projectionTransitionsRows_tracks texts htransitions (fun p hp => (hgroup p hp).2) hnodup
      (readFinancialTable_latest hsettled hread).1 hinstrumentId
  obtain ⟨hforward, hbackward⟩ := mapM_mem h
  simp only [bind_ok_iff, pure_ok_iff] at hforward hbackward
  constructor
  · intro entry hentry
    obtain ⟨column, hcolumn, values, hvalues, rfl⟩ := hbackward entry hentry
    obtain ⟨projection, hprojection, hfield, hok⟩ := haligned.sound column hcolumn
    exact ⟨projection, hprojection, hfield, column.2, hok, numericValues_eq hvalues⟩
  · intro projection hprojection
    obtain ⟨column, hcolumn, hfield⟩ := haligned.complete projection hprojection
    obtain ⟨entry, hentry, values, _, rfl⟩ := hforward column hcolumn
    exact ⟨_, hentry, hfield⟩

end Group

/-- A table that is returned is the series of its request. -/
theorem resolveTable_ok (hsettled : (families request.manifestSha256).Settled)
    {columns : List (F × AlignedColumn S I V)}
    (h : resolveTable texts catalog families request = .ok columns) :
    seriesTable texts catalog families request = .ok columns := by
  unfold resolveTable at h
  simp only [bind_ok_iff, pure_ok_iff] at h
  obtain ⟨_, hvalid, projections, hselect, aligned, haligned, rfl⟩ := h
  obtain ⟨hfields, _⟩ := select_ok hselect
  obtain ⟨hdistinct, hsorted⟩ := validate_ok hvalid
  have hall := resolveGroups_ok (hfields ▸ hdistinct) haligned
    fun _ _ _ _ _ hread hgroup hnodup hok =>
      resolveProjectionGroupTable_resolved hsettled hsorted hread hgroup hnodup hok
  unfold seriesTable
  rw [hvalid, ok_bind, hselect, ok_bind]
  refine mapM_ok fun projection hprojection => ?_
  obtain ⟨column, hlookup, hcolumn⟩ := hall projection hprojection
  rw [hcolumn, hlookup]
  rfl

/-- A series that is returned has the valid values of the series of its request. -/
theorem resolve_ok (hsettled : (families request.manifestSha256).Settled)
    {series : List (F × NumericSeries S I V)}
    (h : resolve texts catalog families request = .ok series) :
    ∃ columns, seriesTable texts catalog families request = .ok columns ∧
      series = columns.map fun column => (column.1, validValues column.2) := by
  unfold resolve at h
  simp only [bind_ok_iff, pure_ok_iff] at h
  obtain ⟨_, hvalid, projections, hselect, resolved, hresolved, rfl⟩ := h
  obtain ⟨hfields, _⟩ := select_ok hselect
  obtain ⟨hdistinct, hsorted⟩ := validate_ok hvalid
  have hall := resolveGroups_ok (hfields ▸ hdistinct) hresolved
    fun _ _ _ _ _ hread hgroup hnodup hok =>
      resolveProjectionGroup_resolved hsettled hsorted hread hgroup hnodup hok
  have hcolumns : ∀ projection ∈ projections, seriesColumn texts (families request.manifestSha256)
      projection request.sessions request.instrumentIds =
        .ok (((seriesColumn texts (families request.manifestSha256) projection request.sessions
          request.instrumentIds).toOption).getD []) := by
    intro projection hprojection
    obtain ⟨_, _, column, hcolumn, _⟩ := hall projection hprojection
    rw [hcolumn]
    rfl
  refine ⟨projections.map fun projection => (projection.fieldId, ((seriesColumn texts
    (families request.manifestSha256) projection request.sessions
      request.instrumentIds).toOption).getD []), ?_, ?_⟩
  · unfold seriesTable
    rw [hvalid, ok_bind, hselect, ok_bind]
    refine mapM_ok fun projection hprojection => ?_
    rw [hcolumns projection hprojection]
    rfl
  · rw [List.map_map]
    refine List.map_congr_left fun projection hprojection => ?_
    obtain ⟨values, hlookup, column, hcolumn, rfl⟩ := hall projection hprojection
    rw [Function.comp_apply, hlookup, hcolumn]
    rfl

end Resolvers

end ThesisTrace.FinancialSeries
