import ThesisTrace.Data.IndicatorAlignment
import ThesisTrace.Data.VersionStability
import ThesisTrace.Library.Windows

/-!
# Indicator series at a point in time

A requested cell is the value that follows from the rows of its instrument up to its session, read
from the rows or from a history that a cache retains.
-/

namespace ThesisTrace.IndicatorSeries
open Transaction IndicatorVersions KeyOrder HistoryProjection SortedRuns

section Alignment

variable {I T Q N : Type} [LinearOrder I] [LinearOrder T] {numbers : IndicatorNumbers Q N}
  {fields : List IndicatorField} {field : IndicatorField} {rows : List (IndicatorRow I T)}
  {instrument : I} {session through : CalendarDate}

omit [LinearOrder T] in
/-- What is visible at a session is visible at every later one. -/
lemma filter_visible (h : session ≤ through) :
    (visible rows instrument through).filter
        (fun row => row.stateEffectiveSession.any (· ≤ session)) =
      visible rows instrument session := by
  rw [visible, visible, List.filter_filter]
  refine List.filter_congr fun row _ => ?_
  cases row.stateEffectiveSession with
  | none => simp
  | some day =>
    have himp : day ≤ session → day ≤ through := fun hle => hle.trans h
    simp only [Option.any_some, decide_eq_true_eq, Bool.decide_and]
    by_cases hle : day ≤ session
    · simp [hle, himp hle]
    · simp [hle, -not_le]

variable (numbers) in
/-- The values of a field at the sessions at which an instrument changes its state -/
def timelineValue (field : IndicatorField) (rows : List (IndicatorRow I T)) (instrument : I)
    (session : CalendarDate) : Option N := seriesValue numbers field (visible rows instrument session)

/-- The last change up to a session has the value of the session. -/
lemma getLast?_sessionsOf (hle : session ≤ through) :
    (((sessionsOf (visible rows instrument through)).filter (· ≤ session)).getLast?.bind fun day =>
        timelineValue numbers field rows instrument day) =
      timelineValue numbers field rows instrument session := by
  have hmem : ∀ {row day}, row ∈ visible rows instrument session →
      row.stateEffectiveSession = some day →
        day ∈ (sessionsOf (visible rows instrument through)).filter (· ≤ session) := by
    intro row day hrow hday
    rw [← filter_visible hle] at hrow
    obtain ⟨hrow, hbefore⟩ := List.mem_filter.mp hrow
    rw [hday] at hbefore
    refine List.mem_filter.mpr ⟨(Finset.mem_sort _).mpr (List.mem_toFinset.mpr
      (List.mem_filterMap.mpr ⟨row, hrow, hday⟩)), by simpa using hbefore⟩
  cases hlast : ((sessionsOf (visible rows instrument through)).filter (· ≤ session)).getLast? with
  | none =>
    rw [List.getLast?_eq_none_iff] at hlast
    have hnil : visible rows instrument session = [] := by
      refine List.eq_nil_iff_forall_not_mem.mpr fun row hrow => ?_
      have hany : row.stateEffectiveSession.any (· ≤ session) = true := by
        have hvisible := (List.mem_filter.mp hrow).2
        simp only [decide_eq_true_eq] at hvisible
        exact hvisible.2
      cases hday : row.stateEffectiveSession with
      | none =>
        rw [hday] at hany
        cases hany
      | some day =>
        have hin := hmem hrow hday
        rw [hlast] at hin
        cases hin
    rw [timelineValue, hnil]
    rfl
  | some day =>
    have hsorted : ((sessionsOf (visible rows instrument through)).filter (· ≤ session)).Pairwise
        (· ≤ ·) := ((Finset.pairwise_sort _ _).filter _)
    have hday : day ≤ session := by
      have hin := List.mem_of_getLast? hlast
      simpa using (List.mem_filter.mp hin).2
    rw [Option.bind_some, timelineValue, timelineValue, ← filter_visible hday]
    congr 1
    refine List.filter_eq_self.mpr fun row hrow => ?_
    cases hrowDay : row.stateEffectiveSession with
    | none =>
      have hvisible := (List.mem_filter.mp hrow).2
      simp [hrowDay] at hvisible
    | some rowDay =>
      have hbefore := @AsOf.le_of_getLast? _ _ _ id _ hsorted _ hlast rowDay (hmem hrow hrowDay)
      simpa using hbefore

end Alignment

/-! ### Tables -/

section Tables

variable {I T Q N : Type} [LinearOrder I] [LinearOrder T] [LinearOrder N]
  {numbers : IndicatorNumbers Q N} {fields : List IndicatorField} {field : IndicatorField}
  {rows : List (IndicatorRow I T)} {instrument : I} {session through : CalendarDate}
  {table : Table (TableCell I N)} {fieldId : Column}

omit [LinearOrder I] [LinearOrder N] in
lemma instrumentCell_injective : Function.Injective (instrumentCell (I := I) (N := N)) :=
  fun _ _ h => Sum.inl.inj (toLex_inj.mp h)

omit [LinearOrder I] in
lemma sessionCell_le_iff [LinearOrder I] {a b : CalendarDate} :
    (sessionCell a : TableCell I N) ≤ sessionCell b ↔ a ≤ b := by
  rw [sessionCell, sessionCell, Sum.Lex.inr_le_inr_iff, Sum.Lex.inl_le_inl_iff]

/-- A table that holds the changes of an instrument has its value at every session. -/
lemma alignedValue_eq (hle : session ≤ through)
    (hsessions : table.rowsOf (instrumentCell instrument) stateEffectiveSession =
      (sessionsOf (visible rows instrument through)).map sessionCell)
    (hvalues : table.rowsOf (instrumentCell instrument) fieldId =
      (sessionsOf (visible rows instrument through)).map fun day =>
        numberCell (timelineValue numbers field rows instrument day)) :
    alignedValue table session instrument fieldId =
      timelineValue numbers field rows instrument session := by
  have hsorted : ((sessionsOf (visible rows instrument through)).map fun day =>
      ((sessionCell day : TableCell I N), (numberCell (timelineValue numbers field rows instrument
        day) : TableCell I N))).Pairwise fun a b => a.1 ≤ b.1 := by
    rw [List.pairwise_map]
    exact (Finset.pairwise_sort _ _).imp sessionCell_le_iff.mpr
  rw [alignedValue, historyOf, hsessions, hvalues, List.zip_map', sortBy_eq_self hsorted,
    AsOf.lastAtMost_eq hsorted, List.filter_map, List.getLast?_map, Option.bind_map]
  simp only [Function.comp_def, sessionCell_le_iff]
  exact getLast?_sessionsOf hle

omit [LinearOrder I] [LinearOrder N] in
lemma valuesOf_map {α κ β : Type} [DecidableEq κ] (f : α → κ) (g : α → β) (l : List α) (key : κ) :
    valuesOf (l.map f) (l.map g) key = (l.filter fun a => f a = key).map g := by
  rw [valuesOf, List.zip_map', List.filter_map, List.map_map]
  rfl

/-- The fields of a request: each under a name of its own that is no name of the table -/
structure DistinctFields (fields : List IndicatorField) : Prop where
  nodup : (fields.map IndicatorField.fieldId).Nodup
  unreserved : ∀ field ∈ fields,
    field.fieldId ≠ instrumentId ∧ field.fieldId ≠ stateEffectiveSession

omit [LinearOrder I] [LinearOrder N] in
lemma column_instrumentId (transitions : List (Transition I N)) :
    (transitionsTable fields transitions).column instrumentId =
      some (transitions.map fun transition => instrumentCell transition.instrumentId) := rfl

omit [LinearOrder I] [LinearOrder N] in
lemma column_session (transitions : List (Transition I N)) :
    (transitionsTable fields transitions).column stateEffectiveSession =
      some (transitions.map fun transition => sessionCell transition.session) := rfl

omit [LinearOrder I] [LinearOrder N] in
lemma find?_zipIdx {entry : IndicatorField × ℕ → Column × List (TableCell I N)}
    (hname : ∀ field i, (entry (field, i)).1 = field.fieldId) {start : ℕ} {i : ℕ}
    (hnodup : (fields.map IndicatorField.fieldId).Nodup) (hfield : fields[i]? = some field) :
    ((fields.zipIdx start).map entry).find? (fun column => column.1 = field.fieldId) =
      some (entry (field, start + i)) := by
  induction fields generalizing start i with
  | nil => simp at hfield
  | cons first fields ih =>
    obtain ⟨hfirst, hnodup⟩ := List.nodup_cons.mp hnodup
    rw [List.zipIdx_cons, List.map_cons]
    cases i with
    | zero =>
      obtain rfl : first = field := by simpa using hfield
      rw [List.find?_cons_of_pos (by simp [hname]), Nat.add_zero]
    | succ i =>
      rw [List.getElem?_cons_succ] at hfield
      have hne : first.fieldId ≠ field.fieldId := fun heq =>
        hfirst (heq ▸ List.mem_map_of_mem (List.mem_of_getElem? hfield))
      rw [List.find?_cons_of_neg (by simpa [hname] using hne), ih hnodup hfield]
      congr 3
      omega

omit [LinearOrder I] [LinearOrder N] in
lemma column_field (hdistinct : DistinctFields fields) {i : ℕ} (hfield : fields[i]? = some field)
    (transitions : List (Transition I N)) :
    (transitionsTable fields transitions).column field.fieldId =
      some (transitions.map fun transition => numberCell (transition.values[i]?.join)) := by
  obtain ⟨hinstrument, hsession⟩ := hdistinct.unreserved field (List.mem_of_getElem? hfield)
  let entry : IndicatorField × ℕ → Column × List (TableCell I N) := fun column =>
    (column.1.fieldId, transitions.map fun transition =>
      numberCell (transition.values[column.2]?.join))
  have hfind := @find?_zipIdx _ _ _ _ entry (fun _ _ => rfl) 0 _ hdistinct.nodup hfield
  rw [Nat.zero_add] at hfind
  unfold Table.column transitionsTable
  dsimp only
  rw [List.find?_cons_of_neg (by simpa using hinstrument.symm),
    List.find?_cons_of_neg (by simpa using hsession.symm), hfind]
  rfl

variable (numbers fields rows) in
/-- The transitions of an instrument up to a day -/
def transitionsOf (through : CalendarDate) (instrument : I) : List (Transition I N) :=
  (sessionsOf (visible rows instrument through)).map fun day =>
    ⟨instrument, day, fields.map fun field => timelineValue numbers field rows instrument day⟩

variable (rows) in
/-- The instruments that have rows up to a day -/
def instrumentsIn (instrumentIds : Finset I) (through : CalendarDate) : List I :=
  ((readTable rows instrumentIds through).map IndicatorRow.instrumentId).toFinset.sort

omit [LinearOrder N] in
lemma loadTransitions_ok (hreadable : Readable numbers fields rows) (instrumentIds : Finset I) :
    loadTransitions numbers rows fields instrumentIds through =
      .ok (transitionsTable fields ((instrumentsIn rows instrumentIds through).flatMap
        (transitionsOf numbers fields rows through))) := by
  have hload : (instrumentsIn rows instrumentIds through).mapM (fun instrument =>
      instrumentTransitions numbers fields ((readTable rows instrumentIds through).filter fun row =>
        row.instrumentId = instrument) instrument) =
      .ok ((instrumentsIn rows instrumentIds through).map
        (transitionsOf numbers fields rows through)) := by
    refine mapM_ok fun instrument hinstrument => ?_
    obtain ⟨row, hrow, hid⟩ := List.mem_map.mp (List.mem_toFinset.mp
      ((Finset.mem_sort _).mp hinstrument))
    have hmem : instrument ∈ instrumentIds := by
      have hread := (List.mem_filter.mp hrow).2
      rw [decide_eq_true_eq, hid] at hread
      exact hread.1
    have hvisible : (readTable rows instrumentIds through).filter
        (fun row => row.instrumentId = instrument) = visible rows instrument through := by
      rw [readTable, visible, List.filter_filter]
      refine List.filter_congr fun other _ => ?_
      by_cases hother : other.instrumentId = instrument <;> simp [hother, hmem]
    have hvisibleReadable : Readable numbers fields (visible rows instrument through) :=
      fun row hrow => hreadable row (List.mem_filter.mp hrow).1
    rw [hvisible, instrumentTransitions_ok hvisibleReadable]
    refine congrArg Except.ok (List.map_congr_left fun day hday => ?_)
    have hle : day ≤ through := by
      obtain ⟨row, hrow, hrowDay⟩ := List.mem_filterMap.mp
        (List.mem_toFinset.mp ((Finset.mem_sort _).mp hday))
      have hvisible := (List.mem_filter.mp hrow).2
      simpa [hrowDay] using And.right (of_decide_eq_true hvisible)
    simp only [filter_visible hle, timelineValue]
  unfold loadTransitions indicatorTransitions
  rw [← instrumentsIn, hload, ok_bind]
  rfl

omit [LinearOrder N] in
/-- The transitions of an instrument stand together. -/
lemma filter_transitions {instrumentIds : Finset I} (hmem : instrument ∈ instrumentIds) :
    ((instrumentsIn rows instrumentIds through).flatMap
      (transitionsOf numbers fields rows through)).filter
        (fun transition => transition.instrumentId = instrument) =
      transitionsOf numbers fields rows through instrument := by
  have hpart : ∀ other, (transitionsOf numbers fields rows through other).filter
      (fun transition => transition.instrumentId = instrument) =
        if other = instrument then transitionsOf numbers fields rows through other else [] := by
    intro other
    have hid : ∀ transition ∈ transitionsOf numbers fields rows through other,
        transition.instrumentId = other := by
      intro transition htransition
      obtain ⟨day, -, rfl⟩ := List.mem_map.mp htransition
      rfl
    split_ifs with heq
    · exact List.filter_eq_self.mpr fun transition htransition =>
        decide_eq_true ((hid transition htransition).trans heq)
    · refine List.filter_eq_nil_iff.mpr fun transition htransition => ?_
      rw [decide_eq_true_eq, hid transition htransition]
      exact heq
  have hnodup : (instrumentsIn rows instrumentIds through).Nodup := Finset.sort_nodup _ _
  rw [List.filter_flatMap]
  simp only [hpart]
  rw [Windows.flatMap_ite hnodup]
  split_ifs with hin
  · rfl
  · have hnone : visible rows instrument through = [] := by
      refine List.filter_eq_nil_iff.mpr fun row hrow => ?_
      intro hvisible
      rw [decide_eq_true_eq] at hvisible
      refine hin ((Finset.mem_sort _).mpr (List.mem_toFinset.mpr (List.mem_map.mpr
        ⟨row, List.mem_filter.mpr ⟨hrow, ?_⟩, hvisible.1⟩)))
      rw [decide_eq_true_eq, hvisible.1]
      exact ⟨hmem, hvisible.2⟩
    rw [transitionsOf, hnone]
    simp [sessionsOf]

/-! ### Histories -/

variable (numbers fields rows) in
/-- A table with the changes of an instrument up to a day -/
structure HoldsHistory (through : CalendarDate) (instrument : I) (table : Table (TableCell I N)) :
    Prop where
  sessions : table.rowsOf (instrumentCell instrument) stateEffectiveSession =
    (sessionsOf (visible rows instrument through)).map sessionCell
  values : ∀ field ∈ fields, table.rowsOf (instrumentCell instrument) field.fieldId =
    (sessionsOf (visible rows instrument through)).map fun day =>
      numberCell (timelineValue numbers field rows instrument day)

/-- The values of an instrument in a table of transitions -/
lemma valuesOf_transitions {instrumentIds : Finset I} (hmem : instrument ∈ instrumentIds)
    (cell : Transition I N → TableCell I N) :
    valuesOf (((instrumentsIn rows instrumentIds through).flatMap
        (transitionsOf numbers fields rows through)).map fun transition =>
          (instrumentCell transition.instrumentId : TableCell I N))
      (((instrumentsIn rows instrumentIds through).flatMap
        (transitionsOf numbers fields rows through)).map cell) (instrumentCell instrument) =
      (transitionsOf numbers fields rows through instrument).map cell := by
  rw [valuesOf_map]
  simp only [instrumentCell_injective.eq_iff]
  rw [filter_transitions hmem]

lemma holdsHistory_transitionsTable (hdistinct : DistinctFields fields) {instrumentIds : Finset I}
    (hmem : instrument ∈ instrumentIds) :
    HoldsHistory numbers fields rows through instrument
      (transitionsTable fields ((instrumentsIn rows instrumentIds through).flatMap
        (transitionsOf numbers fields rows through))) := by
  refine ⟨?_, fun field hfield => ?_⟩
  · rw [Table.rowsOf, column_instrumentId, column_session, Option.getD_some, Option.getD_some,
      valuesOf_transitions hmem, transitionsOf, List.map_map]
    rfl
  · obtain ⟨i, hi⟩ := List.mem_iff_getElem?.mp hfield
    rw [Table.rowsOf, column_instrumentId, column_field hdistinct hi, Option.getD_some,
      Option.getD_some, valuesOf_transitions hmem, transitionsOf, List.map_map]
    simp [Function.comp_def, hi]

variable (numbers fields rows) in
/-- The immutable history of an instrument, with a column for each field of the catalog -/
def indicatorTimeline (through : CalendarDate) (instrument : I) : Timeline (TableCell I N) where
  numRows := (sessionsOf (visible rows instrument through)).length
  column name := (sessionsOf (visible rows instrument through)).map fun day =>
    if name = instrumentId then instrumentCell instrument
    else if name = stateEffectiveSession then sessionCell day
    else numberCell ((fields.find? fun field => field.fieldId = name).bind fun field =>
      timelineValue numbers field rows instrument day)
  length_column _ := List.length_map _

omit [LinearOrder I] [LinearOrder N] in
lemma find?_field {catalog : List IndicatorField} (hdistinct : DistinctFields catalog)
    (hfield : field ∈ catalog) :
    catalog.find? (fun other => other.fieldId = field.fieldId) = some field := by
  cases hfind : catalog.find? fun other => other.fieldId = field.fieldId with
  | none => simpa using List.find?_eq_none.mp hfind field hfield
  | some other =>
    have hname : other.fieldId = field.fieldId := by simpa using List.find?_some hfind
    rw [List.inj_on_of_nodup_map hdistinct.nodup (List.mem_of_find?_eq_some hfind) hfield hname]

omit [LinearOrder N] in
lemma indicatorTimeline_session : (indicatorTimeline numbers fields rows through instrument).column
    stateEffectiveSession = (sessionsOf (visible rows instrument through)).map
      (sessionCell (I := I) (N := N)) := by
  unfold indicatorTimeline
  simp [stateEffectiveSession, instrumentId]

omit [LinearOrder N] in
lemma indicatorTimeline_field (hdistinct : DistinctFields fields) (hfield : field ∈ fields) :
    (indicatorTimeline numbers fields rows through instrument).column field.fieldId =
      (sessionsOf (visible rows instrument through)).map fun day =>
        numberCell (timelineValue numbers field rows instrument day) := by
  obtain ⟨hinstrument, hsession⟩ := hdistinct.unreserved field hfield
  unfold indicatorTimeline
  dsimp only
  rw [find?_field hdistinct hfield]
  simp [hinstrument, hsession]

/-- One after the other, histories of different instruments give each instrument its own. -/
lemma valuesOf_flatMap {V : Type} [DecidableEq V] {ids values : V → List V} {order : List V}
    (hids : ∀ key ∈ order, ids key = List.replicate (values key).length key)
    (hnodup : order.Nodup) {key : V} (hkey : key ∈ order) :
    valuesOf (order.flatMap ids) (order.flatMap values) key = values key := by
  induction order with
  | nil => cases hkey
  | cons first order ih =>
    obtain ⟨hfirst, hrest⟩ := List.forall_mem_cons.mp hids
    obtain ⟨hnotin, hnodup⟩ := List.nodup_cons.mp hnodup
    rw [List.flatMap_cons, List.flatMap_cons, hfirst,
      valuesOf_append (List.length_replicate)]
    have hmember : ∀ id ∈ order.flatMap ids, id ∈ order := by
      intro id hid
      obtain ⟨other, hother, hid⟩ := List.mem_flatMap.mp hid
      rw [hrest other hother] at hid
      exact (List.eq_of_mem_replicate hid) ▸ hother
    rcases List.mem_cons.mp hkey with rfl | hkey
    · rw [valuesOf_replicate, valuesOf_of_notMem fun hid => hnotin (hmember _ hid), List.append_nil]
    · have hne : key ∉ List.replicate (values first).length first := fun hmem =>
        hnotin (List.eq_of_mem_replicate hmem ▸ hkey)
      rw [valuesOf_of_notMem hne, List.nil_append, ih hrest hnodup hkey]

end Tables

end ThesisTrace.IndicatorSeries
