import ThesisTrace.Data.IndicatorPointInTime
import ThesisTrace.Library.Outcomes

/-!
# Resolution of indicator requests

With the help of a cache and without it, a request resolves to the values of its coordinates, each
from the rows that are visible at it.
-/

namespace ThesisTrace.IndicatorSeries
open Transaction IndicatorVersions KeyOrder HistoryProjection SortedRuns

section Caches

variable {I T Q N M Identity : Type} [LinearOrder I] [LinearOrder T] [LinearOrder N]
  [DecidableEq Identity] {numbers : IndicatorNumbers Q N} {catalog : IndicatorCatalog}
  {fields : List IndicatorField} {field : IndicatorField} {rows : List (IndicatorRow I T)}
  {instrument : I} {through : CalendarDate} {size : Table (TableCell I N) → ℕ}
  {pair : Identity → TableCell I N → Identity} {content : Identity → Timeline (TableCell I N)}
  {cache : LruCache.Cache Identity (Table (TableCell I N))} {identity : Identity}
  {request : SeriesRequest I M}

/-- The caches that any calls with faithful loaders leave behind -/
inductive CacheReachable (size : Table (TableCell I N) → ℕ)
    (pair : Identity → TableCell I N → Identity) (content : Identity → Timeline (TableCell I N)) :
    LruCache.Cache Identity (Table (TableCell I N)) → Prop
  | empty (budgetBytes : ℕ) : CacheReachable size pair content (LruCache.empty budgetBytes)
  | serve (cache cache' : LruCache.Cache Identity (Table (TableCell I N)))
      (call : Call Identity (TableCell I N)) (result : Table (TableCell I N)) :
      CacheReachable size pair content cache → Faithful content pair call → NamesInstrument call →
      HistoryProjection.serve size pair cache call = .ok (result, cache') →
      CacheReachable size pair content cache'

lemma CacheReachable.sound (h : CacheReachable size pair content cache) : Sound content cache := by
  induction h with
  | empty budgetBytes => exact LruCache.all_empty _ budgetBytes
  | serve cache cache' call result _ hfaithful hnames hserve ih =>
    obtain ⟨result', cache'', hserve', hsound, -⟩ := serve_ok size ih hfaithful hnames
    obtain ⟨-, rfl⟩ := Prod.mk.inj (Except.ok.inj (hserve.symm.trans hserve'))
    exact hsound

omit [LinearOrder T] [DecidableEq Identity] in
lemma mem_instrumentsOf {cells : Finset (TableCell I N)} :
    instrument ∈ instrumentsOf cells ↔ instrumentCell instrument ∈ cells := by
  simp only [instrumentsOf, List.mem_toFinset, List.mem_filterMap, Finset.mem_sort]
  constructor
  · rintro ⟨cell, hcell, hinstrument⟩
    have hsame : cell = instrumentCell instrument := by
      rw [Sum.getLeft?_eq_some_iff] at hinstrument
      exact hinstrument
    exact hsame ▸ hcell
  · exact fun hcell => ⟨_, hcell, rfl⟩

omit [DecidableEq Identity] in
/-- The loader returns the frozen histories of the instruments that it is asked for. -/
lemma loadsTimelines (hcontent : ∀ instrument, content (pair identity (instrumentCell instrument)) =
      indicatorTimeline numbers catalog.fields rows through instrument)
    (hcatalog : DistinctFields catalog.fields) (hdistinct : DistinctFields fields)
    (hfields : ∀ field ∈ fields, field ∈ catalog.fields)
    (hids : request.fieldIds = fields.map IndicatorField.fieldId)
    {missing : Finset (TableCell I N)}
    (hmissing : ∀ cell ∈ missing, ∃ instrument, cell = instrumentCell instrument) :
    LoadsTimelines content pair identity (historyColumns request) missing
      (transitionsTable fields ((instrumentsIn rows (instrumentsOf missing) through).flatMap
        (transitionsOf numbers fields rows through))) where
  columns name hname := by
    rw [historyColumns, hids] at hname
    simp only [Finset.mem_union, Finset.mem_insert, Finset.mem_singleton, List.mem_toFinset,
      List.mem_map] at hname
    rcases hname with (rfl | rfl) | ⟨field, hfield, rfl⟩
    · exact mem_columnNames (column_instrumentId _)
    · exact mem_columnNames (column_session _)
    · obtain ⟨i, hi⟩ := List.mem_iff_getElem?.mp hfield
      exact mem_columnNames (column_field hdistinct hi _)
  ids := mem_columnNames (column_instrumentId _)
  lengths entry hentry := by
    simp only [transitionsTable, List.mem_cons, List.mem_map] at hentry
    rcases hentry with rfl | rfl | ⟨_, -, rfl⟩ <;> exact List.length_map _
  scope ids hcolumn id hid := by
    obtain rfl := Option.some.inj ((column_instrumentId _).symm.trans hcolumn)
    obtain ⟨transition, htransition, rfl⟩ := List.mem_map.mp hid
    obtain ⟨instrument, hinstrument, htransition⟩ := List.mem_flatMap.mp htransition
    obtain ⟨day, -, rfl⟩ := List.mem_map.mp htransition
    obtain ⟨row, hrow, rfl⟩ := List.mem_map.mp (List.mem_toFinset.mp
      ((Finset.mem_sort _).mp hinstrument))
    exact mem_instrumentsOf.mp (of_decide_eq_true (List.mem_filter.mp hrow).2).1
  timelines ids hcolumn cell hcell entry hentry := by
    obtain ⟨instrument, rfl⟩ := hmissing cell hcell
    have hmem := mem_instrumentsOf.mpr hcell
    obtain rfl := Option.some.inj ((column_instrumentId _).symm.trans hcolumn)
    rw [hcontent]
    simp only [transitionsTable, List.mem_cons, List.mem_map] at hentry
    rcases hentry with rfl | rfl | ⟨⟨field, i⟩, hfield, rfl⟩
    · rw [valuesOf_transitions hmem, transitionsOf, List.map_map]
      simp [indicatorTimeline, Function.comp_def]
    · rw [valuesOf_transitions hmem, transitionsOf, List.map_map, indicatorTimeline_session]
      rfl
    · have hi := List.mem_zipIdx_iff_getElem?.mp hfield
      rw [valuesOf_transitions hmem, transitionsOf, List.map_map,
        indicatorTimeline_field hcatalog (hfields field (List.mem_of_getElem? hi))]
      simp [Function.comp_def, hi]

omit [DecidableEq Identity] in
/-- A result that holds the histories of the requested instruments -/
lemma holdsHistory_of_content {order : List (TableCell I N)} {result : Table (TableCell I N)}
    (hcontent : ∀ instrument, content (pair identity (instrumentCell instrument)) =
      indicatorTimeline numbers catalog.fields rows through instrument)
    (hcatalog : DistinctFields catalog.fields) (hfields : ∀ field ∈ fields, field ∈ catalog.fields)
    (hids : request.fieldIds = fields.map IndicatorField.fieldId)
    (horder : order.Nodup) (hcells : ∀ cell ∈ order, ∃ instrument, cell = instrumentCell instrument)
    (hresult : ∀ name ∈ historyColumns request, result.column name =
      some (order.flatMap fun cell => (content (pair identity cell)).column name))
    (hmem : instrumentCell instrument ∈ order) :
    HoldsHistory numbers fields rows through instrument result := by
  have hrows : ∀ name ∈ historyColumns request, result.rowsOf (instrumentCell instrument) name =
      (indicatorTimeline numbers catalog.fields rows through instrument).column name := by
    intro name hname
    rw [Table.rowsOf, hresult name hname, hresult HistoryProjection.instrumentId
      (by simp [historyColumns]), Option.getD_some, Option.getD_some,
      valuesOf_flatMap (fun cell hcell => ?_) horder hmem, hcontent]
    obtain ⟨other, rfl⟩ := hcells cell hcell
    rw [hcontent, Timeline.length_column]
    refine List.eq_replicate_iff.mpr ⟨Timeline.length_column _ _, fun value hvalue => ?_⟩
    obtain ⟨day, -, rfl⟩ := List.mem_map.mp hvalue
    exact if_pos rfl
  refine ⟨?_, fun field hfield => ?_⟩
  · rw [hrows _ (by simp [historyColumns]), indicatorTimeline_session]
  · rw [hrows _ (by simp [historyColumns, hids, List.mem_map_of_mem hfield]),
      indicatorTimeline_field hcatalog (hfields field hfield)]

end Caches

/-! ### Requests -/

section Requests

variable {I T Q N M Identity : Type} [LinearOrder I] [LinearOrder T] [LinearOrder N] [DecidableEq M]
  [DecidableEq Identity] {numbers : IndicatorNumbers Q N} {catalog : IndicatorCatalog}
  {fields : List IndicatorField} {rows : List (IndicatorRow I T)}
  {size : Table (TableCell I N) → ℕ} {pair : Identity → TableCell I N → Identity}
  {identityOf : M → CalendarDate → Identity} {manifestSha256 : M} {request : SeriesRequest I M}

lemma IndicatorCatalog.distinct (catalog : IndicatorCatalog) : DistinctFields catalog.fields :=
  ⟨catalog.nodup, catalog.unreserved⟩

lemma validateRequest_fields (h : validateRequest catalog manifestSha256 request = .ok fields) :
    request.fieldIds = fields.map IndicatorField.fieldId ∧
      (∀ field ∈ fields, catalog.field field.fieldId = some field) ∧ DistinctFields fields := by
  simp only [validateRequest, bind_ok_iff, require_ok_iff] at h
  obtain ⟨_, ⟨-, hnodup, -, -⟩, hfields⟩ := h
  have hall : List.Forall₂ (fun fieldId field => catalog.field fieldId = some field ∧
      field.fieldId = fieldId) request.fieldIds fields := by
    refine (forall₂_of_mapM hfields).imp fun fieldId field hfound => ?_
    have hfind := found_ok_iff.mp hfound
    exact ⟨hfind, by simpa using List.find?_some hfind⟩
  have hids : request.fieldIds = fields.map IndicatorField.fieldId := by
    have hequal : List.Forall₂ (fun field fieldId => field.fieldId = fieldId) fields
        request.fieldIds := hall.flip.imp fun _ _ hfield => hfield.2
    rw [← List.forall₂_map_left_iff (f := IndicatorField.fieldId) (R := Eq),
      List.forall₂_eq_eq_eq] at hequal
    exact hequal.symm
  have hknown : ∀ field ∈ fields, catalog.field field.fieldId = some field :=
    forall_of_forall₂ hall fun _ _ hfield => hfield.2 ▸ hfield.1
  refine ⟨hids, hknown, hids ▸ hnodup, fun field hfield => ?_⟩
  exact catalog.unreserved field (List.mem_of_find?_eq_some (hknown field hfield))

/-- A history cache that a request may use: it covers the request, and calls with faithful loaders
have filled it. -/
structure Mounted (numbers : IndicatorNumbers Q N) (catalog : IndicatorCatalog)
    (rows : List (IndicatorRow I T)) (size : Table (TableCell I N) → ℕ)
    (pair : Identity → TableCell I N → Identity) (identityOf : M → CalendarDate → Identity)
    (request : SeriesRequest I M) (history : HistoryCache Identity (TableCell I N)) : Prop where
  covers : ∀ session ∈ request.sessions, session ≤ history.historyEnd
  reachable : ∃ content, CacheReachable size pair content history.cache ∧ ∀ instrument,
    content (pair (identityOf request.manifestSha256 history.historyEnd) (instrumentCell instrument)) =
      indicatorTimeline numbers catalog.fields rows history.historyEnd instrument

/-- The table of a request has the values that follow from the visible rows. -/
def Resolves (numbers : IndicatorNumbers Q N) (catalog : IndicatorCatalog)
    (rows : List (IndicatorRow I T)) (request : SeriesRequest I M)
    (cells : List (SeriesCell I N)) : Prop :=
  (∀ session ∈ request.sessions, ∀ instrument ∈ request.instrumentIds,
    ∀ fieldId ∈ request.fieldIds, ∃ cell ∈ cells, cell.session = session ∧
      cell.instrumentId = instrument ∧ cell.fieldId = fieldId) ∧
  ∀ cell ∈ cells, (cell.session ∈ request.sessions ∧ cell.instrumentId ∈ request.instrumentIds ∧
    cell.fieldId ∈ request.fieldIds) ∧ ∃ field, catalog.field cell.fieldId = some field ∧
      cell.value = seriesValue numbers field (visible rows cell.instrumentId cell.session)

omit [DecidableEq M] in
lemma resolves_alignTable {table : Table (TableCell I N)} {through : CalendarDate}
    (hids : request.fieldIds = fields.map IndicatorField.fieldId)
    (hknown : ∀ field ∈ fields, catalog.field field.fieldId = some field)
    (hthrough : ∀ session ∈ request.sessions, session ≤ through)
    (htable : ∀ instrument ∈ request.instrumentIds,
      HoldsHistory numbers fields rows through instrument table) :
    Resolves numbers catalog rows request (alignTable request table) := by
  refine ⟨fun session hsession instrument hinstrument fieldId hfieldId => ?_, fun cell hcell => ?_⟩
  · refine ⟨⟨session, instrument, fieldId, alignedValue table session instrument fieldId⟩, ?_, rfl,
      rfl, rfl⟩
    exact List.mem_flatMap.mpr ⟨session, hsession, List.mem_flatMap.mpr ⟨instrument,
      (Finset.mem_sort _).mpr (List.mem_toFinset.mpr hinstrument),
      List.mem_map.mpr ⟨fieldId, hfieldId, rfl⟩⟩⟩
  · obtain ⟨session, hsession, hcell⟩ := List.mem_flatMap.mp hcell
    obtain ⟨instrument, hinstrument, hcell⟩ := List.mem_flatMap.mp hcell
    obtain ⟨fieldId, hfieldId, rfl⟩ := List.mem_map.mp hcell
    have hinstrument := List.mem_toFinset.mp ((Finset.mem_sort _).mp hinstrument)
    refine ⟨⟨hsession, hinstrument, hfieldId⟩, ?_⟩
    rw [hids] at hfieldId
    obtain ⟨field, hfield, rfl⟩ := List.mem_map.mp hfieldId
    have hholds := htable instrument hinstrument
    exact ⟨field, hknown field hfield,
      alignedValue_eq (hthrough session hsession) hholds.sessions (hholds.values field hfield)⟩

omit [DecidableEq M] in
lemma readHistory_ok {history : HistoryCache Identity (TableCell I N)}
    (hmounted : Mounted numbers catalog rows size pair identityOf request history)
    (hreadable : Readable numbers fields rows)
    (hids : request.fieldIds = fields.map IndicatorField.fieldId)
    (hknown : ∀ field ∈ fields, catalog.field field.fieldId = some field)
    (hdistinct : DistinctFields fields) (hne : request.instrumentIds ≠ []) :
    ∃ table history', readHistory numbers size pair identityOf rows request fields history =
        .ok (table, history') ∧ ∀ instrument ∈ request.instrumentIds,
          HoldsHistory numbers fields rows history.historyEnd instrument table := by
  obtain ⟨content, hreachable, hcontent⟩ := hmounted.reachable
  let instruments : Finset (TableCell I N) := request.instrumentIds.toFinset.image instrumentCell
  have hcells : ∀ cell ∈ instruments, ∃ instrument, cell = instrumentCell instrument := by
    intro cell hcell
    obtain ⟨instrument, -, rfl⟩ := Finset.mem_image.mp hcell
    exact ⟨instrument, rfl⟩
  have hcatalogFields : ∀ field ∈ fields, field ∈ catalog.fields := fun field hfield =>
    List.mem_of_find?_eq_some (hknown field hfield)
  have hload : ∀ missing : Finset (TableCell I N),
      loadTransitions numbers rows fields (instrumentsOf missing) history.historyEnd =
        .ok (transitionsTable fields ((instrumentsIn rows (instrumentsOf missing)
          history.historyEnd).flatMap (transitionsOf numbers fields rows history.historyEnd))) :=
    fun missing => loadTransitions_ok hreadable _
  have hnonempty : instruments.Nonempty := by
    obtain ⟨instrument, hinstrument⟩ := List.exists_mem_of_ne_nil _ hne
    exact ⟨_, Finset.mem_image_of_mem _ (List.mem_toFinset.mpr hinstrument)⟩
  let load : Finset (TableCell I N) → Table (TableCell I N) := fun missing =>
    ((loadTransitions numbers rows fields (instrumentsOf missing)
      history.historyEnd).toOption).getD emptyTable
  have hfaithful : ∀ missing ⊆ instruments, LoadsTimelines content pair
      (identityOf request.manifestSha256 history.historyEnd) (historyColumns request) missing
      (load missing) := by
    intro missing hmissing
    dsimp only [load]
    rw [hload missing]
    exact loadsTimelines hcontent catalog.distinct hdistinct hcatalogFields hids
      fun cell hcell => hcells cell (hmissing hcell)
  obtain ⟨table, cache', hread, -, -, order, horder, hcolumns⟩ :=
    readInstruments_ok size hreachable.sound hnonempty hfaithful
  refine ⟨table, { history with cache := cache' }, ?_, fun instrument hinstrument => ?_⟩
  · have hcovered : require (∀ session ∈ request.sessions.getLast?, session ≤ history.historyEnd)
        SeriesError.coverage = .ok () :=
      require_ok_iff.mpr fun session hsession =>
        hmounted.covers session (List.mem_of_getLast? hsession)
    unfold readHistory
    rw [hcovered, ok_bind]
    dsimp only
    rw [hload, ok_bind, hread]
    rfl
  · have hmem : ∀ cell, cell ∈ order ↔ cell ∈ instruments := fun cell => by
      rw [horder.mem_iff, Finset.mem_sort]
    refine holdsHistory_of_content hcontent catalog.distinct hcatalogFields hids
      (horder.nodup_iff.mpr (Finset.sort_nodup _ _)) (fun cell hcell =>
        hcells cell ((hmem cell).mp hcell)) hcolumns ((hmem _).mpr ?_)
    exact Finset.mem_image_of_mem _ (List.mem_toFinset.mpr hinstrument)

/-- Every valid request resolves, with the help of a cache or without it. -/
theorem resolveTable_ok (hreadable : Readable numbers catalog.fields rows)
    (hrequest : validateRequest catalog manifestSha256 request = .ok fields)
    (history : Option (HistoryCache Identity (TableCell I N)))
    (hhistory : ∀ cache ∈ history, Mounted numbers catalog rows size pair identityOf request cache) :
    ∃ cells history', resolveTable numbers size pair identityOf catalog manifestSha256 rows history
      request = .ok (cells, history') ∧ Resolves numbers catalog rows request cells := by
  obtain ⟨hids, hknown, hdistinct⟩ := validateRequest_fields hrequest
  have hfields : Readable numbers fields rows := fun row hrow field hfield =>
    hreadable row hrow field (List.mem_of_find?_eq_some (hknown field hfield))
  have hsorted : request.sessions.Pairwise (· < ·) := by
    simp only [validateRequest, bind_ok_iff, require_ok_iff] at hrequest
    obtain ⟨_, ⟨-, -, hsorted, -⟩, -⟩ := hrequest
    exact hsorted
  unfold resolveTable
  rw [hrequest, ok_bind]
  split
  next hlast =>
    rw [List.getLast?_eq_none_iff] at hlast
    refine ⟨[], history, rfl, fun session hsession => ?_, by simp⟩
    rw [hlast] at hsession
    cases hsession
  next hinstruments _ =>
    refine ⟨[], history, rfl, fun session _ instrument hinstrument => ?_, by simp⟩
    rw [hinstruments] at hinstrument
    cases hinstrument
  next last hlast hne =>
    have hthrough : ∀ session ∈ request.sessions, session ≤ last := fun session hsession =>
      @AsOf.le_of_getLast? _ _ _ id _ (hsorted.imp le_of_lt) _ hlast session hsession
    cases history with
    | none =>
      refine ⟨_, none, ?_, resolves_alignTable hids hknown hthrough fun instrument hinstrument =>
        holdsHistory_transitionsTable hdistinct (List.mem_toFinset.mpr hinstrument)⟩
      dsimp only
      rw [loadTransitions_ok hfields, ok_bind]
      rfl
    | some history =>
      have hmounted := hhistory history rfl
      obtain ⟨table, history', hread, hholds⟩ :=
        readHistory_ok hmounted hfields hids hknown hdistinct hne
      refine ⟨_, some history', ?_, resolves_alignTable hids hknown hmounted.covers hholds⟩
      dsimp only
      rw [hread]
      rfl

/-- The value at a session, an instrument and a field, if a table has one -/
def valueAt (cells : List (SeriesCell I N)) (session : CalendarDate) (instrument : I)
    (fieldId : Column) : Option (Option N) :=
  (cells.find? fun cell => cell.session = session ∧ cell.instrumentId = instrument ∧
    cell.fieldId = fieldId).map SeriesCell.value

omit [LinearOrder N] [DecidableEq M] in
lemma valueAt_of_resolves {cells : List (SeriesCell I N)} {session : CalendarDate} {instrument : I}
    {field : IndicatorField} {fieldId : Column}
    (h : Resolves numbers catalog rows request cells) (hsession : session ∈ request.sessions)
    (hinstrument : instrument ∈ request.instrumentIds) (hfieldId : fieldId ∈ request.fieldIds)
    (hfield : catalog.field fieldId = some field) :
    valueAt cells session instrument fieldId =
      some (seriesValue numbers field (visible rows instrument session)) := by
  obtain ⟨hall, hvalues⟩ := h
  cases hfind : cells.find? fun cell => cell.session = session ∧ cell.instrumentId = instrument ∧
      cell.fieldId = fieldId with
  | none =>
    obtain ⟨cell, hcell, hcoordinates⟩ := hall session hsession instrument hinstrument fieldId hfieldId
    simpa [hcoordinates] using List.find?_eq_none.mp hfind cell hcell
  | some cell =>
    have hcoordinates := List.find?_some hfind
    rw [decide_eq_true_eq] at hcoordinates
    obtain ⟨rfl, rfl, rfl⟩ := hcoordinates
    obtain ⟨-, field', hfield', hvalue⟩ := hvalues cell (List.mem_of_find?_eq_some hfind)
    obtain rfl := Option.some.inj (hfield.symm.trans hfield')
    rw [valueAt, hfind, Option.map_some, hvalue]

end Requests

/-! ### Point in time -/

section PointInTime

variable {I T D Q N M Identity : Type} [LinearOrder I] [LinearOrder T] [LinearOrder D]
  [LinearOrder N] [DecidableEq M] [DecidableEq Identity]

/-- Observations that are made later keep every version, whatever the order of reading, and what
they add to a seen key is effective after their day. A resolved value follows from the rows of its
instrument that are effective up to its session, in any order: two requests agree on it, whatever
else they ask for and whatever other rows there are, with a history cache or without one. -/
theorem indicators_point_in_time (digest : RowDigest D) (shanghaiDate : T → CalendarDate)
    (calendar : List CalendarDate) (instrumentIds : String → Option I)
    (numbers : IndicatorNumbers Q N) (catalog : IndicatorCatalog)
    (size : Table (TableCell I N) → ℕ) (pair : Identity → TableCell I N → Identity)
    (identityOf : M → CalendarDate → Identity) :
    (∀ observations later : List (IndicatorCollection.Observation T),
      (∀ observation ∈ observations ++ later, Valid instrumentIds observation) →
      (∀ observation ∈ observations, ∀ observation' ∈ later,
        observation.observedAt < observation'.observedAt) →
      ∃ versions versions',
        project digest shanghaiDate calendar instrumentIds observations = .ok versions ∧
        project digest shanghaiDate calendar instrumentIds (observations ++ later) = .ok versions' ∧
        (∀ order, order.Perm (observations ++ later) →
          project digest shanghaiDate calendar instrumentIds order = .ok versions') ∧
        versions'.filter (fun version => version.observationEventAt ∈
          observations.map IndicatorCollection.Observation.observedAt) = versions ∧
        ∀ version ∈ versions', version.observationEventAt ∉
            observations.map IndicatorCollection.Observation.observedAt →
          (∃ old ∈ versions, old.key = version.key) →
          ∀ session ∈ version.stateEffectiveSession,
            shanghaiDate version.observationEventAt < session) ∧
    ∀ (versions versions' : List (IndicatorVersion I T D)) (manifest manifest' : M)
      (request request' : SeriesRequest I M) (fields fields' : List IndicatorField)
      (history history' : Option (HistoryCache Identity (TableCell I N))),
      Readable numbers catalog.fields (storedRows versions) →
      Readable numbers catalog.fields (storedRows versions') →
      validateRequest catalog manifest request = .ok fields →
      validateRequest catalog manifest' request' = .ok fields' →
      (∀ cache ∈ history,
        Mounted numbers catalog (storedRows versions) size pair identityOf request cache) →
      (∀ cache ∈ history',
        Mounted numbers catalog (storedRows versions') size pair identityOf request' cache) →
      ∃ cells after cells' after',
        resolveTable numbers size pair identityOf catalog manifest (storedRows versions) history
          request = .ok (cells, after) ∧
        resolveTable numbers size pair identityOf catalog manifest' (storedRows versions') history'
          request' = .ok (cells', after') ∧
        ∀ session ∈ request.sessions, session ∈ request'.sessions →
          ∀ instrument ∈ request.instrumentIds, instrument ∈ request'.instrumentIds →
          ∀ fieldId ∈ request.fieldIds, fieldId ∈ request'.fieldIds →
            (visible (storedRows versions) instrument session).Perm
              (visible (storedRows versions') instrument session) →
            (valueAt cells session instrument fieldId).isSome ∧
              valueAt cells session instrument fieldId =
                valueAt cells' session instrument fieldId := by
  refine ⟨fun observations later => project_stable, ?_⟩
  intro versions versions' manifest manifest' request request' fields fields' history history'
    hreadable hreadable' hrequest hrequest' hhistory hhistory'
  obtain ⟨cells, after, hresolve, hcells⟩ := resolveTable_ok hreadable hrequest history hhistory
  obtain ⟨cells', after', hresolve', hcells'⟩ :=
    resolveTable_ok hreadable' hrequest' history' hhistory'
  refine ⟨cells, after, cells', after', hresolve, hresolve', ?_⟩
  intro session hsession hsession' instrument hinstrument hinstrument' fieldId hfieldId hfieldId'
    hvisible
  obtain ⟨hids, hknown, -⟩ := validateRequest_fields hrequest
  obtain ⟨field, hfield, rfl⟩ := List.mem_map.mp (hids ▸ hfieldId)
  have hvalue := valueAt_of_resolves hcells hsession hinstrument hfieldId (hknown field hfield)
  have hvalue' := valueAt_of_resolves hcells' hsession' hinstrument' hfieldId' (hknown field hfield)
  rw [hvalue, hvalue', seriesValue_perm hvisible]
  exact ⟨rfl, rfl⟩

end PointInTime

/-! ### A restated report -/

section Restated
open IndicatorCollection

/-- Rows in an order, as digests of themselves -/
abbrev RowText := List (String ×ₗ ℕ ×ₗ String ×ₗ ℤ)

def cellText : Cell → ℕ ×ₗ String ×ₗ ℤ
  | .null => toLex (0, toLex ("", 0))
  | .text value => toLex (1, toLex (value, 0))
  | .number value => toLex (2, toLex ("", value))
  | .other repr => toLex (3, toLex (repr, 0))

lemma cellText_injective : Function.Injective cellText := by
  intro a b h
  cases a <;> cases b <;> simp_all [cellText]

def rowText : RowDigest RowText where
  sha256 row := row.map fun entry => toLex (entry.1, cellText entry.2)
  injective := List.map_injective_iff.mpr fun a b h => by
    obtain ⟨hcolumn, hcell⟩ := Prod.mk.inj (toLex.injective h)
    exact Prod.ext hcolumn (cellText_injective hcell)

def may6 : CalendarDate := ⟨2024, 5, 6, by decide⟩
def may7 : CalendarDate := ⟨2024, 5, 7, by decide⟩
def may20 : CalendarDate := ⟨2024, 5, 20, by decide⟩
def may21 : CalendarDate := ⟨2024, 5, 21, by decide⟩

/-- The first quarter as it was published in April, observed at a time -/
def quarterObservation (observedAt : ℕ) (roe : String) : Observation ℕ :=
  ⟨observedAt, ["ts_code", "end_date", "ann_date", "roe"],
    [[.text "code", .text "20240331", .text "20240430", .text roe]]⟩

def oneInstrument (code : String) : Option ℕ := if code = "code" then some 0 else none

/-- The days of the times 1 and 2 -/
def timeDay (time : ℕ) : CalendarDate := if time = 1 then may6 else may20

/-- A version of the quarter -/
def quarterVersion (observedAt : ℕ) (session : CalendarDate) (roe : String) :
    IndicatorVersion ℕ ℕ RowText :=
  versionOf oneInstrument (fun _ => rowOf ["ts_code", "end_date", "ann_date", "roe"]
    [.text "code", .text "20240331", .text "20240430", .text roe])
    ⟨"code", "20240331", .text "20240430"⟩ (fun _ => some observedAt) observedAt
    (.available, some session) []

def roeVersions : List (IndicatorVersion ℕ ℕ RowText) := [quarterVersion 1 may6 "5"]

def restatedVersions : List (IndicatorVersion ℕ ℕ RowText) :=
  [quarterVersion 2 may21 "6", quarterVersion 1 may6 "5"]

/-- Decimals, and quotients of them in the place of floats -/
def exactNumbers : IndicatorNumbers ℚ ℚ where
  decimal := DecimalText.readDecimal
  isFinite _ := true
  hundredth number := number / 100
  float := some

def roeCatalog : IndicatorCatalog where
  fields := [⟨"roe", "roe", "percent"⟩]
  nodup := by decide
  unreserved := by decide

def roeRequest (sessions : List CalendarDate) : SeriesRequest ℕ Unit := ⟨(), ["roe"], sessions, [0]⟩

/-- The restated histories up to the end of the calendar -/
def restatedHistory : List (TableCell ℕ ℚ) → Timeline (TableCell ℕ ℚ)
  | [] => ⟨0, fun _ => [], fun _ => rfl⟩
  | cell :: _ =>
    indicatorTimeline exactNumbers roeCatalog.fields (storedRows restatedVersions) may21
      ((ofLex cell).getLeft?.getD 0)

/-- A value of May does not change with the restatement of its quarter, nor with a history cache. -/
theorem indicators_point_in_time_restated :
    (∃ versions versions',
      project rowText timeDay [may6, may7, may21] oneInstrument [quarterObservation 1 "5"] =
        .ok versions ∧
      project rowText timeDay [may6, may7, may21] oneInstrument
        [quarterObservation 2 "6", quarterObservation 1 "5"] = .ok versions' ∧
      versions'.filter (fun version => version.observationEventAt ∈ [1]) = versions ∧
      versions.map IndicatorVersion.stateEffectiveSession = [some may6]) ∧
    ∃ cells after cells' after',
      resolveTable exactNumbers (fun _ => 1) (fun identity cell => cell :: identity)
        (fun _ day => [sessionCell day]) roeCatalog () (storedRows roeVersions) none
        (roeRequest [may7]) = .ok (cells, after) ∧
      resolveTable exactNumbers (fun _ => 1) (fun identity cell => cell :: identity)
        (fun _ day => [sessionCell day]) roeCatalog () (storedRows restatedVersions)
        (some ⟨LruCache.empty 1, may21⟩) (roeRequest [may7, may21]) = .ok (cells', after') ∧
      valueAt cells may7 0 "roe" = some (some (1 / 20)) ∧
      valueAt cells' may7 0 "roe" = some (some (1 / 20)) := by
  obtain ⟨hproject, hresolve⟩ := indicators_point_in_time rowText timeDay [may6, may7, may21]
    oneInstrument exactNumbers roeCatalog (fun _ => 1) (fun identity cell => cell :: identity)
    (fun (_ : Unit) day => [sessionCell day])
  have hvalid : ∀ observation ∈ [quarterObservation 1 "5"] ++ [quarterObservation 2 "6"],
      ∃ entries, entriesOf oneInstrument observation = .ok entries := by
    decide
  have hreadable : ∀ versions ∈ [roeVersions, restatedVersions], ∀ row ∈ storedRows versions,
      ∀ field ∈ roeCatalog.fields, ∃ value, normalizeIndicatorValue exactNumbers
        (row.cells field.sourceColumn) field.sourceUnit = .ok value := by
    decide
  constructor
  · obtain ⟨versions, versions', hversions, -, horder, hkept, -⟩ := hproject
      [quarterObservation 1 "5"] [quarterObservation 2 "6"] hvalid (by decide)
    refine ⟨versions, versions', hversions, horder _ (List.Perm.swap _ _ _), hkept, ?_⟩
    have heffective : (project rowText timeDay [may6, may7, may21] oneInstrument
        [quarterObservation 1 "5"]).toOption.map (List.map IndicatorVersion.stateEffectiveSession)
          = some [some may6] := by decide +kernel
    rw [hversions] at heffective
    exact Option.some.inj heffective
  · have hmounted : Mounted exactNumbers roeCatalog (storedRows restatedVersions) (fun _ => 1)
        (fun identity cell => cell :: identity) (fun (_ : Unit) day => [sessionCell day])
        (roeRequest [may7, may21]) ⟨LruCache.empty 1, may21⟩ :=
      ⟨by decide, restatedHistory, .empty 1, fun _ => rfl⟩
    obtain ⟨cells, after, cells', after', hcells, hcells', hsame⟩ := hresolve roeVersions
      restatedVersions () () (roeRequest [may7]) (roeRequest [may7, may21]) roeCatalog.fields
      roeCatalog.fields none (some ⟨LruCache.empty 1, may21⟩)
      (hreadable _ List.mem_cons_self) (hreadable _ (List.mem_cons_of_mem _ List.mem_cons_self))
      rfl rfl nofun
      (fun cache hcache => Option.some.inj hcache ▸ hmounted)
    have hvalue : valueAt cells may7 0 "roe" = some (some (1 / 20)) := by
      have hresult : (resolveTable exactNumbers (fun _ => 1) (fun identity cell => cell :: identity)
          (fun (_ : Unit) day => [sessionCell day]) roeCatalog () (storedRows roeVersions) none
          (roeRequest [may7])).toOption.map (fun out => valueAt out.1 may7 0 "roe") =
            some (some (some (1 / 20))) := by decide +kernel
      rw [hcells] at hresult
      exact Option.some.inj hresult
    have hvisible : visible (storedRows restatedVersions) 0 may7 =
        visible (storedRows roeVersions) 0 may7 :=
      List.filter_cons_of_neg (by decide)
    obtain ⟨-, hequal⟩ := hsame may7 (by decide) (by decide) 0 (by decide) (by decide) "roe"
      (by decide) (by decide) (.of_eq hvisible.symm)
    exact ⟨cells, after, cells', after', hcells, hcells', hvalue, hequal ▸ hvalue⟩

end Restated

end ThesisTrace.IndicatorSeries
