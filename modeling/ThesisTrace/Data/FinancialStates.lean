import ThesisTrace.Data.FinancialSeries

/-!
# What is known at a session

The rows of an instrument that are available at a session determine the latest row of each
period. Both computations of the transitions come to the row of the latest period, on whatever
rows a read keeps.
-/

namespace ThesisTrace.FinancialSeries
open Transaction AsOf

variable {F S I V T M : Type}

/-! ### Keys -/

lemma snd_le_of_fst_eq [LinearOrder S] [LinearOrder I] {x y : I × S} (h : toLex x ≤ toLex y)
    (heq : x.1 = y.1) : x.2 ≤ y.2 :=
  (Prod.Lex.le_iff.mp h).resolve_left (fun hlt => heq.not_lt hlt) |>.2

lemma snd_lt_of_fst_eq [LinearOrder S] [LinearOrder I] {x y : I × S} (h : toLex x < toLex y)
    (heq : x.1 = y.1) : x.2 < y.2 :=
  (Prod.Lex.lt_iff.mp h).resolve_left (fun hlt => heq.not_lt hlt) |>.2

/-! ### Distinct versions -/

/-- Available rows are told apart by their digests. -/
def Distinguished (rows : List (FinancialRow S I V T)) : Prop :=
  ∀ x ∈ rows, ∀ y ∈ rows, x.availabilityStatus = "available" → y.availabilityStatus = "available" →
    x.sourceRowSha256 = y.sourceRowSha256 → x = y

lemma Distinguished.mono {rows rows' : List (FinancialRow S I V T)} (h : Distinguished rows)
    (hsubset : rows' ⊆ rows) : Distinguished rows' :=
  fun x hx y hy => h x (hsubset hx) y (hsubset hy)

lemma sha_of_versionKey {x y : FinancialRow S I V T} (h : x.versionKey = y.versionKey) :
    x.sourceRowSha256 = y.sourceRowSha256 :=
  congrArg (fun key => (ofLex (ofLex (ofLex (ofLex (ofLex (ofLex key).2).2).2).2).2).2) h

/-! ### The latest rows -/

section Latest

/-- The latest rows of each period after a list of rows. -/
def latestOf (rows : List (FinancialRow S I V T)) : Latest S I V T :=
  rows.foldl Latest.add ∅

lemma lookup_latestOf (rows : List (FinancialRow S I V T)) (period : ReportPeriod) :
    (latestOf rows).lookup period =
      (rows.filter fun row => row.sourceReportPeriod = period).getLast? := by
  induction rows using List.reverseRecOn with
  | nil => rfl
  | append_singleton rows row ih =>
    rw [latestOf, List.foldl_concat, Latest.add, OrderedMap.lookup_set]
    by_cases hperiod : row.sourceReportPeriod = period
    · simp [hperiod]
    · simp only [List.filter_append, hperiod, decide_false, Bool.false_eq_true, not_false_eq_true,
        List.filter_cons_of_neg, List.filter_nil, List.append_nil]
      rw [if_neg (Ne.symm hperiod)]
      exact ih

lemma mem_keys_iff {latest : Latest S I V T} {period : ReportPeriod} :
    period ∈ latest.keys ↔ latest.lookup period ≠ none := by
  rw [← AList.mem_keys, ne_eq, AList.lookup_eq_none, not_not]

lemma maximum_congr {l l' : List ReportPeriod} (h : ∀ a, a ∈ l ↔ a ∈ l') :
    l.maximum = l'.maximum := by
  have hle : ∀ {l l' : List ReportPeriod}, (∀ a, a ∈ l → a ∈ l') → l.maximum ≤ l'.maximum :=
    fun hsubset => List.maximum_le_of_forall_le fun a ha => List.le_maximum_of_mem' (hsubset a ha)
  exact le_antisymm (hle fun a => (h a).mp) (hle fun a => (h a).mpr)

/-- What is current depends on the latest rows as a map. -/
lemma current_congr {latest latest' : Latest S I V T}
    (h : ∀ period, latest.lookup period = latest'.lookup period) :
    latest.current = latest'.current := by
  have hkeys : latest.keys.maximum = latest'.keys.maximum :=
    maximum_congr fun period => by rw [mem_keys_iff, mem_keys_iff, h]
  unfold Latest.current
  rw [hkeys]
  split
  · rfl
  · exact h _

/-- The current row is the last that has the latest period. -/
lemma current_latestOf (rows : List (FinancialRow S I V T)) :
    (latestOf rows).current = (rows.filter fun row => (row.sourceReportPeriod : WithBot ReportPeriod) =
      (rows.map FinancialRow.sourceReportPeriod).maximum).getLast? := by
  have hkeys : (latestOf rows).keys.maximum =
      (rows.map FinancialRow.sourceReportPeriod).maximum := by
    refine maximum_congr fun period => ?_
    rw [mem_keys_iff, lookup_latestOf, ne_eq, List.getLast?_eq_none_iff, List.filter_eq_nil_iff,
      List.mem_map]
    simp
  unfold Latest.current
  rw [hkeys]
  cases hmax : (rows.map FinancialRow.sourceReportPeriod).maximum with
  | bot =>
    rw [List.maximum_eq_bot, List.map_eq_nil_iff] at hmax
    subst hmax
    rfl
  | coe period =>
    refine (lookup_latestOf rows period).trans (congrArg List.getLast? ?_)
    exact List.filter_congr fun row _ => decide_eq_decide.mpr WithBot.coe_inj.symm

end Latest

/-! ### Accepted rows -/

section Accepted
variable {selection : PeriodSelection} {instrumentIds : List I} {rows : List (FinancialRow S I V T)}
variable {instrumentId : I} [LinearOrder I]

lemma accepted_iff {row : FinancialRow S I V T} :
    row.accepted selection instrumentIds = true ↔
      row.instrumentId ∈ instrumentIds ∧ row.accepted selection [row.instrumentId] = true := by
  simp [FinancialRow.accepted]

lemma available_of_accepted {row : FinancialRow S I V T}
    (h : row.accepted selection instrumentIds = true) : row.availabilityStatus = "available" := by
  unfold FinancialRow.accepted at h
  exact (of_decide_eq_true h).2.1

variable [LinearOrder S] [LinearOrder T]

lemma mem_acceptedRows {row : FinancialRow S I V T} :
    row ∈ acceptedRows selection instrumentIds rows ↔
      row ∈ rows ∧ row.accepted selection instrumentIds = true := by
  rw [acceptedRows, List.mem_mergeSort, List.mem_filter]

lemma acceptedRows_sorted : (acceptedRows selection instrumentIds rows).Pairwise fun x y =>
    toLex (x.instrumentId, x.versionKey) ≤ toLex (y.instrumentId, y.versionKey) :=
  sorted_mergeSort (fun row : FinancialRow S I V T => toLex (row.instrumentId, row.versionKey)) _

lemma acceptedRows_instrumentId :
    (acceptedRows selection instrumentIds rows).Pairwise fun x y => x.instrumentId ≤ y.instrumentId :=
  acceptedRows_sorted.imp fun h => Prod.Lex.monotone_fst _ _ h

lemma acceptedRows_instrumentSession : (acceptedRows selection instrumentIds rows).Pairwise
    fun x y => x.instrumentSession ≤ y.instrumentSession := by
  refine acceptedRows_sorted.imp fun {x y} h => ?_
  rcases Prod.Lex.toLex_le_toLex.mp h with hlt | ⟨heq, hversion⟩
  · exact Prod.Lex.toLex_le_toLex.mpr (.inl hlt)
  · exact Prod.Lex.toLex_le_toLex.mpr (.inr ⟨heq, Prod.Lex.monotone_fst _ _ hversion⟩)

/-- The accepted rows of one instrument do not depend on which others are asked for. -/
lemma filter_acceptedRows (hrows : Distinguished rows) (hmem : instrumentId ∈ instrumentIds) :
    (acceptedRows selection instrumentIds rows).filter (fun row => row.instrumentId = instrumentId) =
      acceptedRows selection [instrumentId] rows := by
  have hperm : ((acceptedRows selection instrumentIds rows).filter
      fun row => row.instrumentId = instrumentId).Perm (acceptedRows selection [instrumentId] rows) := by
    refine ((List.mergeSort_perm _ _).filter _).trans ?_
    refine .trans ?_ (List.mergeSort_perm _ _).symm
    rw [List.filter_filter]
    refine .of_eq (List.filter_congr fun row _ => ?_)
    rw [Bool.eq_iff_iff, Bool.and_eq_true, decide_eq_true_eq, accepted_iff,
      @accepted_iff _ _ _ _ _ [instrumentId], List.mem_singleton]
    exact ⟨fun ⟨heq, _, haccepted⟩ => ⟨heq, haccepted⟩,
      fun ⟨heq, haccepted⟩ => ⟨heq, heq ▸ hmem, haccepted⟩⟩
  refine @List.Perm.eq_of_pairwise _ (fun x y =>
    toLex (x.instrumentId, x.versionKey) ≤ toLex (y.instrumentId, y.versionKey)) _ _ ?_
    (acceptedRows_sorted.filter _) acceptedRows_sorted hperm
  intro x y hx hy hxy hyx
  have hkey := congrArg (fun key => (ofLex key).2) (le_antisymm hxy hyx)
  obtain ⟨hxrows, hxaccepted⟩ := mem_acceptedRows.mp (List.mem_of_mem_filter hx)
  obtain ⟨hyrows, hyaccepted⟩ := mem_acceptedRows.mp hy
  exact hrows x hxrows y hyrows (available_of_accepted hxaccepted)
    (available_of_accepted hyaccepted) (sha_of_versionKey hkey)

end Accepted

/-! ### Transitions up to a session -/

section Transitions
variable [LinearOrder S] [LinearOrder I] [LinearOrder T]
variable {selection : PeriodSelection} {instrumentIds : List I} {rows : List (FinancialRow S I V T)}
variable {instrumentId : I} {session : S}

/-- The accepted rows of an instrument that are available at a session. -/
def visibleRows (selection : PeriodSelection) (rows : List (FinancialRow S I V T))
    (instrumentId : I) (session : S) : List (FinancialRow S I V T) :=
  (acceptedRows selection [instrumentId] rows).filter fun row =>
    row.effectiveAvailableSession ≤ session

lemma acceptedRows_session : (acceptedRows selection [instrumentId] rows).Pairwise fun x y =>
    x.effectiveAvailableSession ≤ y.effectiveAvailableSession := by
  have hinstrument : ∀ row ∈ acceptedRows selection [instrumentId] rows,
      row.instrumentId = instrumentId := fun row hrow =>
    List.mem_singleton.mp (accepted_iff.mp (mem_acceptedRows.mp hrow).2).1
  refine List.Pairwise.imp_of_mem ?_ acceptedRows_instrumentSession
  intro x y hx hy h
  exact snd_le_of_fst_eq h ((hinstrument x hx).trans (hinstrument y hy).symm)

/-- Whether a transition is one of an instrument, up to a session. -/
def reached (instrumentId : I) (session : S) (key : I ×ₗ S) : Bool :=
  (ofLex key).1 = instrumentId ∧ (ofLex key).2 ≤ session

omit [LinearOrder T] in
lemma reached_row (row : FinancialRow S I V T) :
    reached instrumentId session row.instrumentSession =
      (decide (row.instrumentId = instrumentId) &&
        decide (row.effectiveAvailableSession ≤ session)) :=
  Bool.decide_and ..

/-- The last change of an instrument up to a session is made by the rows that are visible. -/
lemma stateChanges_at (hrows : Distinguished rows) (hmem : instrumentId ∈ instrumentIds) :
    ((stateChanges (acceptedRows selection instrumentIds rows)).filter fun entry =>
        reached instrumentId session entry.1.instrumentSession).getLast? =
      (visibleRows selection rows instrumentId session).getLast?.map fun row =>
        (row, latestOf (visibleRows selection rows instrumentId session)) := by
  have hsplit : ∀ entries : List (FinancialRow S I V T × Latest S I V T), entries.filter
      (fun entry => reached instrumentId session entry.1.instrumentSession) =
        (entries.filter fun entry => entry.1.instrumentId = instrumentId).filter fun entry =>
          entry.1.effectiveAvailableSession ≤ session := by
    intro entries
    rw [List.filter_filter]
    exact List.filter_congr fun entry _ => (reached_row entry.1).trans (Bool.and_comm ..)
  unfold stateChanges
  rw [@getLast?_filter_lastOfRuns _ _ _ (fun entry : FinancialRow S I V T × Latest S I V T =>
      entry.1.instrumentSession) (reached instrumentId session), hsplit,
    filter_scanGroups Latest.add FinancialRow.instrumentId ∅ instrumentId acceptedRows_instrumentId,
    filter_acceptedRows hrows hmem, filter_scan Latest.add ∅ acceptedRows_session, getLast?_scan]
  rfl

/-- The last candidate of an instrument up to a session is the row of the latest period. -/
lemma candidates_at (hrows : Distinguished rows) (hmem : instrumentId ∈ instrumentIds) :
    ((lastOfRuns FinancialRow.instrumentSession
      (((scanGroups (raise FinancialRow.sourceReportPeriod) FinancialRow.instrumentId ⊥ none
        (acceptedRows selection instrumentIds rows)).filter fun entry =>
          (entry.1.sourceReportPeriod : WithBot ReportPeriod) = entry.2).map Prod.fst)).filter
        fun row => reached instrumentId session row.instrumentSession).getLast? =
      (latestOf (visibleRows selection rows instrumentId session)).current := by
  have hsplit : ∀ entries : List (FinancialRow S I V T × WithBot ReportPeriod),
      ((entries.filter fun entry =>
          (entry.1.sourceReportPeriod : WithBot ReportPeriod) = entry.2).map Prod.fst).filter
        (fun row => reached instrumentId session row.instrumentSession) =
      (((entries.filter fun entry => entry.1.instrumentId = instrumentId).filter fun entry =>
        entry.1.effectiveAvailableSession ≤ session).filter fun entry =>
          (entry.1.sourceReportPeriod : WithBot ReportPeriod) = entry.2).map Prod.fst := by
    intro entries
    rw [List.filter_map, List.filter_filter, List.filter_filter, List.filter_filter]
    refine congrArg _ (List.filter_congr fun entry _ => ?_)
    rw [Function.comp_apply, reached_row, Bool.and_comm, Bool.and_comm (decide (_ = instrumentId)),
      Bool.and_assoc]
  rw [getLast?_filter_lastOfRuns (reached instrumentId session), hsplit,
    filter_scanGroups _ FinancialRow.instrumentId ⊥ instrumentId acceptedRows_instrumentId,
    filter_acceptedRows hrows hmem, filter_scan _ ⊥ acceptedRows_session, List.getLast?_map,
    getLast?_records, current_latestOf]
  rfl

end Transitions

/-! ### Rows that a read keeps -/

section Reads
variable [LinearOrder S] [LinearOrder I] [LinearOrder T]
variable {selection : PeriodSelection} {rows : List (FinancialRow S I V T)}
variable {instrumentId : I} {session : S} {period : ReportPeriod}

/-- The rows of one period that are visible at a session. -/
def Visible (selection : PeriodSelection) (instrumentId : I) (session : S) (period : ReportPeriod)
    (row : FinancialRow S I V T) : Prop :=
  row.accepted selection [instrumentId] = true ∧ row.effectiveAvailableSession ≤ session ∧
    row.sourceReportPeriod = period

omit [LinearOrder T] in
lemma Visible.instrumentId_eq {row : FinancialRow S I V T}
    (h : Visible selection instrumentId session period row) : row.instrumentId = instrumentId :=
  List.mem_singleton.mp (accepted_iff.mp h.1).1

lemma mem_visible {row : FinancialRow S I V T} :
    row ∈ (visibleRows selection rows instrumentId session).filter
        (fun row => row.sourceReportPeriod = period) ↔
      row ∈ rows ∧ Visible selection instrumentId session period row := by
  rw [visibleRows, List.mem_filter, List.mem_filter, mem_acceptedRows, decide_eq_true_eq,
    decide_eq_true_eq, Visible]
  tauto

/-- The latest row of a period is the greatest version that is visible. -/
lemma lookup_visible_iff (hrows : Distinguished rows) {row : FinancialRow S I V T} :
    (latestOf (visibleRows selection rows instrumentId session)).lookup period = some row ↔
      (row ∈ rows ∧ Visible selection instrumentId session period row) ∧
        ∀ other ∈ rows, Visible selection instrumentId session period other →
          other.versionKey ≤ row.versionKey := by
  have hsorted : ((visibleRows selection rows instrumentId session).filter
      fun row => row.sourceReportPeriod = period).Pairwise fun x y =>
        x.versionKey ≤ y.versionKey := by
    refine List.Pairwise.imp_of_mem ?_ ((acceptedRows_sorted.filter _).filter _)
    intro x y hx hy h
    exact snd_le_of_fst_eq h
      ((mem_visible.mp hx).2.instrumentId_eq.trans (mem_visible.mp hy).2.instrumentId_eq.symm)
  have hkey : ∀ x ∈ (visibleRows selection rows instrumentId session).filter
      (fun row => row.sourceReportPeriod = period), ∀ y ∈ (visibleRows selection rows instrumentId
        session).filter (fun row => row.sourceReportPeriod = period),
      x.versionKey = y.versionKey → x = y := by
    intro x hx y hy hxy
    obtain ⟨hxrows, hxvisible⟩ := mem_visible.mp hx
    obtain ⟨hyrows, hyvisible⟩ := mem_visible.mp hy
    exact hrows x hxrows y hyrows (available_of_accepted hxvisible.1)
      (available_of_accepted hyvisible.1) (sha_of_versionKey hxy)
  rw [lookup_latestOf, getLast?_sorted_iff hsorted hkey, mem_visible]
  refine and_congr_right fun _ => forall_congr' fun other => ?_
  rw [mem_visible, and_imp]

lemma lookup_visible_eq_none :
    (latestOf (visibleRows selection rows instrumentId session)).lookup period = none ↔
      ∀ row ∈ rows, ¬ Visible selection instrumentId session period row := by
  rw [lookup_latestOf, List.getLast?_eq_none_iff, List.eq_nil_iff_forall_not_mem]
  refine forall_congr' fun row => ?_
  rw [mem_visible, not_and]

/-- Some of the rows determine the latest row of a period when the greatest version is one of
them. -/
lemma lookup_visible_congr {kept : List (FinancialRow S I V T)} (hrows : Distinguished rows)
    (hsubset : ∀ row ∈ kept, Visible selection instrumentId session period row → row ∈ rows)
    (hkept : Distinguished kept)
    (hgreatest : ∀ row ∈ rows, Visible selection instrumentId session period row →
      (∀ other ∈ rows, Visible selection instrumentId session period other →
        other.versionKey ≤ row.versionKey) → row ∈ kept) :
    (latestOf (visibleRows selection kept instrumentId session)).lookup period =
      (latestOf (visibleRows selection rows instrumentId session)).lookup period := by
  cases hlookup : (latestOf (visibleRows selection rows instrumentId session)).lookup period with
  | none =>
    rw [lookup_visible_eq_none] at hlookup ⊢
    exact fun row hrow hvisible => hlookup row (hsubset row hrow hvisible) hvisible
  | some row =>
    rw [lookup_visible_iff hrows] at hlookup
    obtain ⟨⟨hrow, hvisible⟩, hall⟩ := hlookup
    rw [lookup_visible_iff hkept]
    exact ⟨⟨hgreatest row hrow hvisible hall, hvisible⟩, fun other hother hothervisible =>
      hall other (hsubset other hother hothervisible) hothervisible⟩

omit [LinearOrder I] in
/-- Versions of one period are ordered by their session and their revision. -/
lemma versionKey_le_iff {x y : FinancialRow S I V T}
    (hperiod : x.sourceReportPeriod = y.sourceReportPeriod) :
    x.versionKey ≤ y.versionKey ↔
      toLex (x.effectiveAvailableSession, x.revision) ≤
        toLex (y.effectiveAvailableSession, y.revision) := by
  simp only [FinancialRow.versionKey, Prod.Lex.toLex_le_toLex, hperiod, lt_irrefl, false_or,
    true_and]

lemma mem_compactFinancialHistory {startSession : S} {row : FinancialRow S I V T}
    (h : row ∈ compactFinancialHistory rows startSession) : row ∈ rows := by
  rcases List.mem_append.mp h with hbefore | hwithin
  · have hmem := List.mem_mergeSort.mp ((lastOfRuns_sublist _).subset hbefore)
    exact List.mem_of_mem_filter hmem
  · exact List.mem_of_mem_filter hwithin

/-- Compaction keeps the greatest version of each period that is visible from its start on. -/
lemma greatest_mem_compact (hrows : Distinguished rows) {startSession : S}
    (hstart : startSession ≤ session) {row : FinancialRow S I V T} (hrow : row ∈ rows)
    (hvisible : Visible selection instrumentId session period row)
    (hall : ∀ other ∈ rows, Visible selection instrumentId session period other →
      other.versionKey ≤ row.versionKey) :
    row ∈ compactFinancialHistory rows startSession := by
  refine List.mem_append.mpr ?_
  by_cases hwithin : startSession ≤ row.effectiveAvailableSession
  · exact .inr (List.mem_filter.mpr ⟨hrow, by simpa using hwithin⟩)
  · left
    have hbefore := not_le.mp hwithin
    -- the last of the row's run is a version of the same report, and no greater one
    set sorted := (rows.filter fun row => row.effectiveAvailableSession < startSession).mergeSort
      fun x y => x.historyKey ≤ y.historyKey with hsortedDef
    have hmemSorted : row ∈ sorted := by
      rw [hsortedDef, List.mem_mergeSort, List.mem_filter]
      exact ⟨hrow, by simpa using hbefore⟩
    have hsorted : sorted.Pairwise fun x y => x.historyKey ≤ y.historyKey :=
      sorted_mergeSort FinancialRow.historyKey _
    have hrun := @getLast?_filter_lastOfRuns _ _ _ FinancialRow.identity
      (fun identity => identity = row.identity) sorted
    have hmemRun : row ∈ sorted.filter fun other => other.identity = row.identity :=
      List.mem_filter.mpr ⟨hmemSorted, by simp⟩
    cases hlast : (sorted.filter fun other => other.identity = row.identity).getLast? with
    | none =>
      rw [List.getLast?_eq_none_iff] at hlast
      rw [hlast] at hmemRun
      cases hmemRun
    | some last =>
      rw [hlast] at hrun
      have hlastKept := List.mem_of_mem_filter (List.mem_of_getLast? hrun)
      obtain ⟨hlastSorted, hidentity⟩ := List.mem_filter.mp (List.mem_of_getLast? hlast)
      have hidentity' : last.identity = row.identity := of_decide_eq_true hidentity
      rw [hsortedDef, List.mem_mergeSort, List.mem_filter] at hlastSorted
      obtain ⟨hlastRows, hlastBefore⟩ := hlastSorted
      obtain ⟨hinstrument, hperiod, htype, hcompany, _, hstatus⟩ :
          last.instrumentId = row.instrumentId ∧ last.sourceReportPeriod = row.sourceReportPeriod ∧
            last.sourceReportType = row.sourceReportType ∧
            last.sourceCompanyType = row.sourceCompanyType ∧
            last.sourceEndType = row.sourceEndType ∧
            last.availabilityStatus = row.availabilityStatus := by
        simpa only [FinancialRow.identity, EmbeddingLike.apply_eq_iff_eq, Prod.mk.injEq]
          using hidentity'
      have hlastVisible : Visible selection instrumentId session period last := by
        refine ⟨?_, ?_, hperiod.trans hvisible.2.2⟩
        · have haccepted := hvisible.1
          unfold FinancialRow.accepted at haccepted ⊢
          rwa [hinstrument, hstatus, htype, hcompany, hperiod]
        · exact (of_decide_eq_true hlastBefore).le.trans hstart
      have hle : row.versionKey ≤ last.versionKey := by
        rw [versionKey_le_iff hperiod.symm]
        exact snd_le_of_fst_eq (le_of_getLast? (hsorted.filter _) hlast row hmemRun) hidentity'.symm
      have hsame := le_antisymm hle (hall last hlastRows hlastVisible)
      rw [hrows row hrow last hlastRows (available_of_accepted hvisible.1)
        (available_of_accepted hlastVisible.1) (sha_of_versionKey hsame)]
      exact hlastKept

end Reads

/-! ### Aligned transitions -/

section Alignment
variable [LinearOrder S] [LinearOrder I]
variable {transitions : List (Transition F S I V)} {instrumentId : I}

/-- The transition at a session is the last of the instrument's transitions up to it. -/
lemma transitionAt_eq {history : List (Transition F S I V)}
    (hperm : (transitions.filter fun transition => transition.instrumentId = instrumentId).Perm history)
    (hstrict : history.Pairwise fun x y => x.session < y.session) (session : S) :
    transitionAt transitions session instrumentId =
      (history.filter fun transition => transition.session ≤ session).getLast? := by
  have hsorted : ((transitions.mergeSort fun x y =>
      toLex (x.instrumentId, x.session) ≤ toLex (y.instrumentId, y.session)).filter
        fun transition => transition.instrumentId = instrumentId).Pairwise
      fun x y => x.session ≤ y.session := by
    have hlex := sorted_mergeSort (fun transition : Transition F S I V =>
      toLex (transition.instrumentId, transition.session)) transitions
    refine List.Pairwise.imp_of_mem ?_ (hlex.filter _)
    intro x y hx hy h
    exact snd_le_of_fst_eq h ((of_decide_eq_true (List.mem_filter.mp hx).2).trans
      (of_decide_eq_true (List.mem_filter.mp hy).2).symm)
  have hequal : (transitions.mergeSort fun x y =>
      toLex (x.instrumentId, x.session) ≤ toLex (y.instrumentId, y.session)).filter
        (fun transition => transition.instrumentId = instrumentId) = history := by
    have hhistory := ((List.mergeSort_perm transitions fun x y =>
      toLex (x.instrumentId, x.session) ≤ toLex (y.instrumentId, y.session)).filter
        fun transition => transition.instrumentId = instrumentId).trans hperm
    refine @List.Perm.eq_of_pairwise _ (fun x y => x.session ≤ y.session) _ _ ?_ hsorted
      (hstrict.imp le_of_lt) hhistory
    intro x y hx hy hxy hyx
    have hnodup : (history.map Transition.session).Nodup := List.pairwise_map.mpr (hstrict.imp ne_of_lt)
    exact List.inj_on_of_nodup_map hnodup (hhistory.subset hx) hy (le_antisymm hxy hyx)
  unfold transitionAt
  rw [hequal]
  exact lastAtMost_eq (hstrict.imp le_of_lt) session

section Entries
variable {α : Type} {entries : List α} {key : α → I ×ₗ S}
  (hstrict : entries.Pairwise fun a b => key a < key b) {g : α → Transition F S I V}
  (hg : ∀ a ∈ entries, toLex ((g a).instrumentId, (g a).session) = key a)
include hstrict hg

/-- Entries with distinct coordinates make at most one transition of an instrument at a session. -/
lemma history_strict (instrumentId : I) : ((entries.map g).filter fun transition =>
    transition.instrumentId = instrumentId).Pairwise fun x y => x.session < y.session := by
  have hlex : (entries.map g).Pairwise fun x y =>
      toLex (x.instrumentId, x.session) < toLex (y.instrumentId, y.session) := by
    rw [List.pairwise_map]
    refine List.Pairwise.imp_of_mem ?_ hstrict
    intro a b ha hb h
    rwa [hg a ha, hg b hb]
  refine List.Pairwise.imp_of_mem ?_ (hlex.filter _)
  intro x y hx hy h
  exact snd_lt_of_fst_eq h ((of_decide_eq_true (List.mem_filter.mp hx).2).trans
    (of_decide_eq_true (List.mem_filter.mp hy).2).symm)

variable (hperm : (transitions.filter fun transition => transition.instrumentId = instrumentId).Perm
  ((entries.map g).filter fun transition => transition.instrumentId = instrumentId))
include hperm

lemma sessions_nodup : ((transitions.filter fun transition =>
    transition.instrumentId = instrumentId).map Transition.session).Nodup :=
  (hperm.map _).nodup_iff.mpr
    (List.pairwise_map.mpr ((history_strict hstrict hg instrumentId).imp ne_of_lt))

/-- Transitions that are made from entries with distinct coordinates. -/
lemma transitionAt_map (session : S) :
    transitionAt transitions session instrumentId =
      (entries.filter fun a => reached instrumentId session (key a)).getLast?.map g := by
  rw [transitionAt_eq hperm (history_strict hstrict hg instrumentId), List.filter_filter,
    List.filter_map, List.getLast?_map]
  refine congrArg _ (congrArg _ (List.filter_congr fun a ha => ?_))
  rw [← hg a ha, Function.comp_apply, reached, Bool.decide_and, Bool.and_comm]
  rfl

end Entries

/-- What comes of the other instruments, and in which order, does not matter. -/
lemma transitionAt_congr {transitions' : List (Transition F S I V)}
    (hperm : (transitions.filter fun transition => transition.instrumentId = instrumentId).Perm
      (transitions'.filter fun transition => transition.instrumentId = instrumentId))
    (hnodup : ((transitions.filter fun transition =>
      transition.instrumentId = instrumentId).map Transition.session).Nodup) (session : S) :
    transitionAt transitions session instrumentId =
      transitionAt transitions' session instrumentId := by
  set history := (transitions.filter fun transition =>
    transition.instrumentId = instrumentId).mergeSort fun x y => x.session ≤ y.session with hdef
  have hhistory := List.mergeSort_perm (transitions.filter fun transition =>
    transition.instrumentId = instrumentId) fun x y => x.session ≤ y.session
  have hstrict : history.Pairwise fun x y => x.session < y.session := by
    have hdistinct := List.pairwise_map.mp ((hhistory.map Transition.session).nodup_iff.mpr hnodup)
    exact ((sorted_mergeSort Transition.session _).and hdistinct).imp fun h => lt_of_le_of_ne h.1 h.2
  rw [transitionAt_eq hhistory.symm hstrict, transitionAt_eq (hperm.symm.trans hhistory.symm) hstrict]

end Alignment

end ThesisTrace.FinancialSeries
