import Mathlib.Data.Finset.Powerset
import ThesisTrace.Data.HistoryProjection

/-!
# The projection cache is transparent

Every entry of the cache is a projection of an immutable timeline, whatever was evicted or
widened. So each call returns what its loader would have returned, and a call for instruments
returns the rows of each of them once, in their order.
-/

namespace ThesisTrace.HistoryProjection
open SortedRuns LruCache Transaction
open scoped KeyOrder

/-! ### Tables -/

section Tables

variable {V : Type} {table : Table V} {name : Column} {values : List V}

lemma column_eq_some (h : table.column name = some values) : (name, values) ∈ table.columns := by
  obtain ⟨entry, hentry, rfl⟩ := Option.map_eq_some_iff.mp h
  have hname : entry.1 = name := by simpa using List.find?_some hentry
  rw [← hname]
  exact List.mem_of_find?_eq_some hentry

lemma exists_column (h : name ∈ table.columnNames) : ∃ values, table.column name = some values := by
  obtain ⟨entry, hmem, rfl⟩ := List.mem_map.mp h
  refine Option.isSome_iff_exists.mp ?_
  rw [Table.column, Option.isSome_map, List.find?_isSome]
  exact ⟨entry, hmem, by simp⟩

lemma mem_columnNames (h : table.column name = some values) : name ∈ table.columnNames :=
  List.mem_map.mpr ⟨_, column_eq_some h, rfl⟩

lemma column_eq_none {name : Column} (h : name ∉ table.columnNames) : table.column name = none := by
  cases hcolumn : table.column name with
  | none => rfl
  | some values => exact absurd (mem_columnNames hcolumn) h

lemma map_fst_of_forall₂ {names : List Column} {columns : List (Column × List V)}
    {P : Column × List V → Prop}
    (h : List.Forall₂ (fun name entry => entry.1 = name ∧ P entry) names columns) :
    columns.map Prod.fst = names ∧ ∀ entry ∈ columns, P entry := by
  induction h with
  | nil => exact ⟨rfl, nofun⟩
  | cons hhead _ ih =>
    obtain ⟨rfl, hentry⟩ := hhead
    refine ⟨congrArg _ ih.1, fun entry hmem => ?_⟩
    rcases List.mem_cons.mp hmem with rfl | hmem
    · exact hentry
    · exact ih.2 entry hmem

/-- A selection by name. -/
lemma select_ok {names : List Column} (h : ∀ name ∈ names, name ∈ table.columnNames) :
    ∃ selected, table.select names = .ok selected ∧ selected.numRows = table.numRows ∧
      selected.columnNames = names ∧ ∀ entry ∈ selected.columns, entry ∈ table.columns := by
  obtain ⟨columns, hcolumns, hrows⟩ := mapM_exists
    (f := fun name => do return (name, ← found (table.column name) Error.keyError))
    (R := fun name entry => entry.1 = name ∧ entry ∈ table.columns) fun name (hname : name ∈ names) => by
      obtain ⟨values, hvalues⟩ := exists_column (h name hname)
      refine ⟨(name, values), ?_, rfl, column_eq_some hvalues⟩
      rw [hvalues]
      rfl
  obtain ⟨hnames, hmem⟩ := map_fst_of_forall₂ hrows
  refine ⟨⟨table.numRows, columns⟩, ?_, rfl, hnames, hmem⟩
  unfold Table.select
  rw [hcolumns]
  rfl

end Tables

/-! ### Timelines -/

/-- The immutable rows of an identity: a value for each row in every column. -/
structure Timeline (V : Type) where
  numRows : Nat
  column : Column → List V
  length_column : ∀ name, (column name).length = numRows

/-- The table holds the rows of the timeline in each of its columns. -/
structure Projects {V : Type} (timeline : Timeline V) (table : Table V) : Prop where
  numRows : table.numRows = timeline.numRows
  values : ∀ entry ∈ table.columns, entry.2 = timeline.column entry.1

section Projections

variable {V : Type} {timeline : Timeline V} {table table' : Table V} {name : Column}
  {values : List V}

lemma Projects.column (h : Projects timeline table) (hcolumn : table.column name = some values) :
    values = timeline.column name :=
  h.values _ (column_eq_some hcolumn)

lemma Projects.column_eq (h : Projects timeline table) (hname : name ∈ table.columnNames) :
    table.column name = some (timeline.column name) := by
  obtain ⟨values, hvalues⟩ := exists_column hname
  rw [hvalues, h.column hvalues]

lemma Projects.select (h : Projects timeline table) (names : List Column)
    (hnames : ∀ name ∈ names, name ∈ table.columnNames) :
    ∃ selected, table.select names = .ok selected ∧ selected.columnNames = names ∧
      Projects timeline selected := by
  obtain ⟨selected, hselected, hrows, hcolumns, hmem⟩ := select_ok hnames
  exact ⟨selected, hselected, hcolumns, hrows.trans h.numRows, fun entry hentry =>
    h.values entry (hmem entry hentry)⟩

/-- Projections of one timeline never differ. -/
lemma Projects.sameCoordinates (h : Projects timeline table) (h' : Projects timeline table') :
    sameCoordinates table table' := by
  refine ⟨h.numRows.trans h'.numRows.symm, fun name hname hname' => ?_⟩
  rw [h.column_eq hname, h'.column_eq hname']

lemma Projects.widen (h : Projects timeline table) (h' : Projects timeline table') :
    Projects timeline (widen table table') := by
  have hloop : ∀ entries : List (Column × List V), (∀ entry ∈ entries, entry ∈ table.columns) →
      ∀ wide, Projects timeline wide →
        Projects timeline (entries.foldl (fun wide entry =>
          if entry.1 ∈ wide.columnNames then wide else wide.appendColumn entry) wide) := by
    intro entries
    induction entries with
    | nil => exact fun _ _ hwide => hwide
    | cons entry entries ih =>
      intro hmem wide hwide
      refine ih (fun entry hentry => hmem entry (List.mem_cons_of_mem _ hentry)) _ ?_
      dsimp only
      split
      · exact hwide
      · refine ⟨hwide.numRows, fun entry' hentry' => ?_⟩
        rcases List.mem_append.mp hentry' with hentry' | hentry'
        · exact hwide.values entry' hentry'
        · obtain rfl := List.mem_singleton.mp hentry'
          exact h.values _ (hmem _ List.mem_cons_self)
  exact hloop table.columns (fun _ h => h) table' h'

end Projections

/-! ### Entries -/

section Entries

variable {Identity V : Type} [DecidableEq Identity] {content : Identity → Timeline V} {cache : Cache Identity (Table V)} {identity : Identity}
  {columns : Finset Column} {table : Table V}

/-- Every entry is a projection of the timeline of its key. -/
abbrev Sound (content : Identity → Timeline V) (cache : Cache Identity (Table V)) : Prop :=
  LruCache.All (fun identity table => Projects (content identity) table) cache

lemma mem_sorted {name : Column} : name ∈ sorted columns ↔ name ∈ columns :=
  Finset.mem_sort _

lemma getEntry_ok (identity : Identity) (columns : Finset Column) (h : Sound content cache) :
    ∃ entry cache', getEntry cache identity columns = .ok (entry, cache') ∧ Sound content cache' ∧
      ∀ table ∈ entry, table.columnNames = sorted columns ∧ Projects (content identity) table := by
  unfold getEntry
  cases hpeek : peek cache identity with
  | none => exact ⟨none, cache, rfl, h, nofun⟩
  | some table =>
    have htouch := h.touch identity
    by_cases hsub : columns ⊆ table.columnNames.toFinset
    · obtain ⟨selected, hselected, hnames, hprojects⟩ := (h.peek hpeek).select (sorted columns)
        fun name hname =>
          List.mem_toFinset.mp (hsub (mem_sorted.mp hname))
      refine ⟨some selected, touch cache identity, ?_, htouch, ?_⟩
      · simp only [if_pos hsub, hselected]
        rfl
      · rintro table ⟨⟩
        exact ⟨hnames, hprojects⟩
    · exact ⟨none, touch cache identity, by simp only [if_neg hsub], htouch, nofun⟩

variable [DecidableEq V]

lemma retain_ok (size : Table V → Nat) (h : Sound content cache)
    (htable : Projects (content identity) table) :
    ∃ cache', retain size cache identity table = .ok cache' ∧ Sound content cache' := by
  obtain ⟨merged, hmerged, hprojects⟩ : ∃ merged,
      merge (peek cache identity) table = .ok merged ∧ Projects (content identity) merged := by
    cases hpeek : peek cache identity with
    | none => exact ⟨table, rfl, htable⟩
    | some previous =>
      have hprevious := h.peek hpeek
      refine ⟨widen previous table, ?_, hprevious.widen htable⟩
      rw [merge, (require_ok_iff (u := ())).mpr (hprevious.sameCoordinates htable)]
      rfl
  refine ⟨_, by rw [retain, hmerged]; rfl, ?_⟩
  cases hset : LruCache.set size (touch cache identity) identity merged with
  | none => exact h.touch identity
  | some cache' => exact (h.touch identity).set hprojects hset

lemma read_ok (size : Table V → Nat) (h : Sound content cache)
    (htable : Projects (content identity) table)
    (hcolumns : ∀ name, name ∈ table.columnNames ↔ name ∈ columns) :
    ∃ result cache', read size cache identity columns table = .ok (result, cache') ∧
      Sound content cache' ∧ Projects (content identity) result ∧
      ∀ name, name ∈ result.columnNames ↔ name ∈ columns := by
  obtain ⟨entry, cache', hget, hsound, hentry⟩ := getEntry_ok identity columns h
  unfold read
  rw [hget]
  cases entry with
  | some result =>
    obtain ⟨hnames, hprojects⟩ := hentry result rfl
    refine ⟨result, cache', rfl, hsound, hprojects, fun name => ?_⟩
    rw [hnames, mem_sorted]
  | none =>
    obtain ⟨cache'', hretain, hsound'⟩ := retain_ok size hsound htable
    refine ⟨table, cache'', ?_, hsound', htable, hcolumns⟩
    simp only [ok_bind, hretain]
    rfl

end Entries

/-! ### Calls for instruments -/

section Instruments

variable {Identity V : Type} {content : Identity → Timeline V}
  {cache : Cache Identity (Table V)} {identity : Identity} {columns : Finset Column}
  {pair : Identity → V → Identity}

lemma found_some {ε β : Type} (value : β) (e : ε) : found (some value) e = .ok value := rfl

lemma column_take (table : Table V) (positions : List Nat) (name : Column) :
    (table.take positions).column name = (table.column name).map (takeAt positions) := by
  simp only [Table.column, Table.take, List.find?_map, Option.map_map]
  rfl

/-- A table that holds the requested columns of one instrument's timeline. -/
def HoldsTimeline (content : Identity → Timeline V) (pair : Identity → V → Identity)
    (identity : Identity) (columns : Finset Column) (instrument : V) (table : Table V) : Prop :=
  table.columnNames = sorted columns ∧ Projects (content (pair identity instrument)) table

section Cached

variable [DecidableEq Identity]

lemma cachedTimelines_ok (pair : Identity → V → Identity) (identity : Identity)
    (columns : Finset Column) (instruments : List V) (h : Sound content cache) :
    ∃ tables missing cached cache', cachedTimelines pair identity columns instruments cache =
        .ok (tables, missing, cache') ∧ Sound content cache' ∧
      (cached ++ missing).Perm instruments ∧
      List.Forall₂ (HoldsTimeline content pair identity columns) cached tables := by
  induction instruments generalizing cache with
  | nil => exact ⟨[], [], [], cache, rfl, h, .refl _, .nil⟩
  | cons instrument rest ih =>
    obtain ⟨entry, cache₁, hget, hsound, hentry⟩ :=
      getEntry_ok (pair identity instrument) columns h
    obtain ⟨tables, missing, cached, cache₂, hrest, hsound', hperm, hrows⟩ := ih hsound
    unfold cachedTimelines
    rw [hget, ok_bind]
    dsimp only
    rw [hrest]
    cases entry with
    | some table =>
      exact ⟨table :: tables, missing, instrument :: cached, cache₂, rfl, hsound',
        hperm.cons instrument, .cons (hentry table rfl) hrows⟩
    | none =>
      exact ⟨tables, instrument :: missing, cached, cache₂, rfl, hsound',
        List.perm_middle.trans (hperm.cons instrument), hrows⟩

end Cached

/-! ### The rows of all instruments -/

section Concat

variable {order : List V} {tables : List (Table V)}

lemma columns_of_holds (h : List.Forall₂ (HoldsTimeline content pair identity columns) order tables)
    {name : Column} (hname : name ∈ columns) :
    tables.mapM (fun table => found (table.column name) Error.keyError) =
      .ok (order.map fun instrument => (content (pair identity instrument)).column name) := by
  induction h with
  | nil => rfl
  | cons hhead _ ih =>
    have hcolumn := hhead.2.column_eq (hhead.1 ▸ mem_sorted.mpr hname)
    rw [List.mapM_cons, ih, hcolumn]
    rfl

lemma columnNames_of_holds
    (h : List.Forall₂ (HoldsTimeline content pair identity columns) order tables)
    {table : Table V} (hmem : table ∈ tables) : table.columnNames = sorted columns := by
  induction h with
  | nil => cases hmem
  | cons hhead _ ih =>
    rcases List.mem_cons.mp hmem with rfl | hmem
    · exact hhead.1
    · exact ih hmem

/-- The timelines one after the other. -/
lemma concatTables_ok (h : List.Forall₂ (HoldsTimeline content pair identity columns) order tables)
    (hne : order ≠ []) :
    ∃ result, concatTables tables = .ok result ∧ result.columnNames = sorted columns ∧
      ∀ name ∈ columns, result.column name =
        some (order.flatMap fun instrument => (content (pair identity instrument)).column name) := by
  cases h with
  | nil => exact absurd rfl hne
  | @cons instrument first order rest hfirst hrest =>
    have hall := List.Forall₂.cons hfirst hrest
    have hsame : ∀ table ∈ rest, table.columnNames = first.columnNames := fun table hmem =>
      (columnNames_of_holds hrest hmem).trans hfirst.1.symm
    obtain ⟨entries, hentries, hrows⟩ := mapM_exists
      (f := fun name => do
        let parts ← (first :: rest).mapM fun table => found (table.column name) Error.keyError
        return (name, parts.flatten))
      (R := fun name entry => entry.1 = name ∧ entry.2 = (instrument :: order).flatMap
        fun instrument => (content (pair identity instrument)).column entry.1)
      fun name (hname : name ∈ first.columnNames) => by
        rw [hfirst.1] at hname
        refine ⟨_, by rw [columns_of_holds hall (mem_sorted.mp hname)]; rfl, rfl, ?_⟩
        exact List.flatMap_def.symm
    obtain ⟨hnames, hvalues⟩ := map_fst_of_forall₂ hrows
    let result : Table V :=
      ⟨if entries = [] then 0 else ((first :: rest).map Table.numRows).sum, entries⟩
    have hcolumns : result.columnNames = sorted columns := hnames.trans hfirst.1
    refine ⟨result, ?_, hcolumns, fun name hname => ?_⟩
    · rw [concatTables, (require_ok_iff (u := ())).mpr hsame, ok_bind, hentries]
      rfl
    · obtain ⟨values, hcolumn⟩ := exists_column (hcolumns ▸ mem_sorted.mpr hname)
      rw [hcolumn]
      exact congrArg some (hvalues _ (column_eq_some hcolumn))

end Concat

section Loading

variable [LinearOrder V]

/-- The values of an instrument's rows in a table that names the instruments. -/
def Table.rowsOf (table : Table V) (instrument : V) (name : Column) : List V :=
  valuesOf ((table.column instrumentId).getD []) ((table.column name).getD []) instrument

/-- The loaded table holds the requested columns and exactly the timelines of the instruments, each
in its order; the rows of different instruments may be mixed. -/
structure LoadsTimelines (content : Identity → Timeline V) (pair : Identity → V → Identity)
    (identity : Identity) (columns : Finset Column) (instruments : Finset V) (table : Table V) :
    Prop where
  columns : ∀ name ∈ columns, name ∈ table.columnNames
  ids : instrumentId ∈ table.columnNames
  lengths : ∀ entry ∈ table.columns, entry.2.length = table.numRows
  scope : ∀ ids, table.column instrumentId = some ids → ∀ id ∈ ids, id ∈ instruments
  timelines : ∀ ids, table.column instrumentId = some ids → ∀ instrument ∈ instruments,
    ∀ entry ∈ table.columns, valuesOf ids entry.2 instrument =
      (content (pair identity instrument)).column entry.1

variable {instruments : Finset V} {table : Table V} {unsorted : List V}

lemma LoadsTimelines.length_ids
    (h : LoadsTimelines content pair identity columns instruments table)
    (hids : table.column instrumentId = some unsorted) : unsorted.length = table.numRows :=
  h.lengths _ (column_eq_some hids)

lemma LoadsTimelines.rowsOf
    (h : LoadsTimelines content pair identity columns instruments table) {instrument : V}
    (hmem : instrument ∈ instruments) {name : Column} (hname : name ∈ columns) :
    table.rowsOf instrument name = (content (pair identity instrument)).column name := by
  obtain ⟨ids, hids⟩ := exists_column h.ids
  obtain ⟨values, hvalues⟩ := exists_column (h.columns name hname)
  rw [Table.rowsOf, hids, hvalues]
  exact h.timelines ids hids instrument hmem _ (column_eq_some hvalues)

/-- The run of an instrument in the sorted table is its timeline. -/
lemma LoadsTimelines.projects_run
    (h : LoadsTimelines content pair identity columns instruments table)
    (hids : table.column instrumentId = some unsorted) {instrument : V}
    (hmem : instrument ∈ instruments) :
    let bounds := boundsOf (takeAt (sortIndices unsorted) unsorted) instrument
    Projects (content (pair identity instrument))
      ((table.take (sortIndices unsorted)).take (List.range' bounds.1 (bounds.2 - bounds.1))) := by
  intro bounds
  have hrun : ∀ entry ∈ table.columns,
      takeAt (List.range' bounds.1 (bounds.2 - bounds.1))
        (takeAt (sortIndices unsorted) entry.2) =
      (content (pair identity instrument)).column entry.1 := by
    intro entry hentry
    have hlen : entry.2.length = unsorted.length :=
      (h.lengths entry hentry).trans (h.length_ids hids).symm
    rw [← h.timelines unsorted hids instrument hmem entry hentry]
    exact takeAt_run hlen instrument
  refine ⟨?_, ?_⟩
  · have hlength := congrArg List.length (hrun _ (column_eq_some hids))
    rw [Timeline.length_column, length_takeAt fun i hi => lt_length_of_mem_stretch hi] at hlength
    exact hlength
  · intro entry hentry
    simp only [Table.take, List.mem_map] at hentry
    obtain ⟨_, ⟨entry, hentry, rfl⟩, rfl⟩ := hentry
    exact hrun entry hentry

variable [DecidableEq Identity]

lemma retainTimelines_ok (size : Table V → Nat)
    (h : LoadsTimelines content pair identity columns instruments table)
    (hids : table.column instrumentId = some unsorted) (missing : List V)
    (hmissing : ∀ instrument ∈ missing, instrument ∈ instruments) (hsound : Sound content cache) :
    ∃ tables cache', retainTimelines size pair identity columns
        (table.take (sortIndices unsorted)) (takeAt (sortIndices unsorted) unsorted) missing cache =
        .ok (tables, cache') ∧ Sound content cache' ∧
      List.Forall₂ (HoldsTimeline content pair identity columns) missing tables := by
  induction missing generalizing cache with
  | nil => exact ⟨[], cache, rfl, hsound, .nil⟩
  | cons instrument rest ih =>
    have hprojects := h.projects_run hids (hmissing instrument List.mem_cons_self)
    obtain ⟨cache₁, hretain, hsound₁⟩ := retain_ok size hsound hprojects
    obtain ⟨selected, hselected, hnames, hselects⟩ := hprojects.select (sorted columns)
      fun name hname => by
        have hloaded := h.columns name (mem_sorted.mp hname)
        simpa [Table.columnNames, Table.take] using hloaded
    obtain ⟨tables, cache₂, hrest, hsound₂, hrows⟩ := ih
      (fun instrument hmem => hmissing instrument (List.mem_cons_of_mem _ hmem)) hsound₁
    refine ⟨selected :: tables, cache₂, ?_, hsound₂, .cons ⟨hnames, hselects⟩ hrows⟩
    unfold retainTimelines
    dsimp only
    rw [hretain, ok_bind, hselected, ok_bind, hrest]
    rfl

/-! ### Calls -/

lemma readInstruments_ok (size : Table V → Nat) {load : Finset V → Table V}
    (hsound : Sound content cache)
    (hne : instruments.Nonempty)
    (hload : ∀ missing ⊆ instruments,
      LoadsTimelines content pair identity columns missing (load missing)) :
    ∃ result cache', readInstruments size pair cache identity columns instruments load =
        .ok (result, cache') ∧ Sound content cache' ∧ result.columnNames = sorted columns ∧
      ∃ order : List V, order.Perm instruments.sort ∧ ∀ name ∈ columns, result.column name =
        some (order.flatMap fun instrument =>
          (content (pair identity instrument)).column name) := by
  obtain ⟨tables, missing, cached, cache₁, hcached, hsound₁, hperm, hrows⟩ :=
    cachedTimelines_ok pair identity columns instruments.sort hsound
  have horder : cached ++ missing ≠ [] := by
    intro hnil
    rw [hnil] at hperm
    obtain ⟨instrument, hmem⟩ := hne
    have hmem' := hperm.mem_iff.mpr ((Finset.mem_sort _).mpr hmem)
    cases hmem'
  unfold readInstruments
  rw [hcached, ok_bind]
  dsimp only
  by_cases hmissing : missing = []
  · subst hmissing
    rw [List.append_nil] at hperm horder
    obtain ⟨result, hresult, hnames, hcolumns⟩ := concatTables_ok hrows horder
    refine ⟨result, cache₁, ?_, hsound₁, hnames, cached, hperm, hcolumns⟩
    rw [if_pos rfl, hresult]
    rfl
  · have hsub : missing.toFinset ⊆ instruments := by
      intro instrument hmem
      refine (Finset.mem_sort (· ≤ ·)).mp (hperm.mem_iff.mp ?_)
      exact List.mem_append_right _ (List.mem_toFinset.mp hmem)
    have htable := hload _ hsub
    obtain ⟨unsorted, hids⟩ := exists_column htable.ids
    have hscope : ∀ run ∈ runs (takeAt (sortIndices unsorted) unsorted), run.1 ∈ missing := by
      intro run hrun
      have hid := htable.scope unsorted hids _ (mem_of_mem_takeAt (mem_runs hrun))
      exact List.mem_toFinset.mp hid
    obtain ⟨selected, cache₂, hretain, hsound₂, hselected⟩ := retainTimelines_ok size
      htable hids missing (fun instrument hmem => List.mem_toFinset.mpr hmem) hsound₁
    obtain ⟨result, hresult, hnames, hcolumns⟩ := concatTables_ok
      (List.rel_append hrows hselected) horder
    refine ⟨result, cache₂, ?_, hsound₂, hnames, _, hperm, hcolumns⟩
    rw [if_neg hmissing, hids, found_some, ok_bind, column_take, hids, Option.map_some, found_some,
      ok_bind, (require_ok_iff (u := ())).mpr hscope, ok_bind, hretain, ok_bind, hresult]
    rfl

/-- The loader of a call reads the immutable timelines. -/
def Faithful (content : Identity → Timeline V) (pair : Identity → V → Identity) :
    Call Identity V → Prop
  | .read objectIdentity columns load =>
    Projects (content objectIdentity) load ∧ ∀ name, name ∈ load.columnNames ↔ name ∈ columns
  | .readInstruments identity columns instrumentIds load =>
    ∀ missing ⊆ instrumentIds, LoadsTimelines content pair identity columns missing (load missing)

/-- The call names an instrument, if it reads instruments. -/
def NamesInstrument : Call Identity V → Prop
  | .read _ _ _ => True
  | .readInstruments _ _ instrumentIds _ => instrumentIds.Nonempty

/-- The result of a call is what its loader returns: the same columns with the same values, and for
instruments the rows of each of them once, in their order. -/
def Transparent : Call Identity V → Table V → Prop
  | .read _ _ load, result =>
    result.numRows = load.numRows ∧ ∀ name, result.column name = load.column name
  | .readInstruments _ columns instrumentIds load, result =>
    result.columnNames = sorted columns ∧ ∃ order : List V, order.Perm instrumentIds.sort ∧
      ∀ name ∈ columns, result.column name =
        some (order.flatMap fun instrument => (load instrumentIds).rowsOf instrument name)

lemma serve_ok (size : Table V → Nat) {call : Call Identity V} (hsound : Sound content cache)
    (hcall : Faithful content pair call) (hnames : NamesInstrument call) :
    ∃ result cache', serve size pair cache call = .ok (result, cache') ∧ Sound content cache' ∧
      Transparent call result := by
  cases call with
  | read objectIdentity columns load =>
    obtain ⟨result, cache', hread, hsound', hprojects, hcolumns⟩ :=
      read_ok size hsound hcall.1 hcall.2
    refine ⟨result, cache', hread, hsound', hprojects.numRows.trans hcall.1.numRows.symm,
      fun name => ?_⟩
    by_cases hname : name ∈ columns
    · rw [hprojects.column_eq ((hcolumns name).mpr hname),
        hcall.1.column_eq ((hcall.2 name).mpr hname)]
    · rw [column_eq_none fun h => hname ((hcolumns name).mp h),
        column_eq_none fun h => hname ((hcall.2 name).mp h)]
  | readInstruments identity columns instrumentIds load =>
    obtain ⟨result, cache', hread, hsound', hresult, order, hperm, hcolumns⟩ :=
      readInstruments_ok size hsound hnames hcall
    refine ⟨result, cache', hread, hsound', hresult, order, hperm, fun name hname => ?_⟩
    rw [hcolumns name hname]
    refine congrArg some (List.flatMap_congr fun instrument hmem => ?_)
    have hinstrument := (Finset.mem_sort _).mp (hperm.mem_iff.mp hmem)
    exact ((hcall instrumentIds (Finset.Subset.refl _)).rowsOf hinstrument hname).symm

/-- For every budget and every sequence of calls, each call returns what its loader returns. -/
theorem cache_transparent (content : Identity → Timeline V) (pair : Identity → V → Identity)
    (size : Table V → Nat) (budgetBytes : Nat) (calls : List (Call Identity V))
    (hcalls : ∀ call ∈ calls, Faithful content pair call ∧ NamesInstrument call) :
    ∃ results, serveAll size pair (LruCache.empty budgetBytes) calls = .ok results ∧
      List.Forall₂ Transparent calls results := by
  have hrun : ∀ cache : Cache Identity (Table V), Sound content cache →
      ∃ results, serveAll size pair cache calls = .ok results ∧
        List.Forall₂ Transparent calls results := by
    induction calls with
    | nil => exact fun _ _ => ⟨[], rfl, .nil⟩
    | cons call calls ih =>
      intro cache hsound
      obtain ⟨hcall, hnames⟩ := hcalls call List.mem_cons_self
      obtain ⟨result, cache', hserve, hsound', hresult⟩ := serve_ok size hsound hcall hnames
      obtain ⟨results, hresults, hrows⟩ :=
        ih (fun call hmem => hcalls call (List.mem_cons_of_mem _ hmem)) cache' hsound'
      refine ⟨result :: results, ?_, .cons hresult hrows⟩
      rw [serveAll, hserve, ok_bind]
      dsimp only
      rw [hresults]
      rfl
  exact hrun _ (all_empty _ budgetBytes)

end Loading

end Instruments

/-! ### Two instruments -/

section Sample

def sampleTimeline (instrument : Nat) : Timeline Nat where
  numRows := 1
  column name := if name = instrumentId then [instrument] else [7 * instrument]
  length_column name := by split <;> rfl

/-- The objects of the identity 10 are 11 and 12. -/
def sampleContent (identity : Nat) : Timeline Nat := sampleTimeline (identity % 10)

def sampleIds (missing : Finset Nat) : List Nat := [1, 2].filter (· ∈ missing)

/-- The loader of a market of two instruments. -/
def sampleLoad (missing : Finset Nat) : Table Nat :=
  ⟨(sampleIds missing).length,
    [(instrumentId, sampleIds missing), ("close", (sampleIds missing).map (7 * ·))]⟩

lemma sampleLoad_timelines {missing : Finset Nat} {columns : Finset Column}
    (hmissing : missing ⊆ {1, 2}) (hcolumns : columns ⊆ {instrumentId, "close"}) :
    LoadsTimelines sampleContent (· + ·) 10 columns missing (sampleLoad missing) where
  columns name hname := by
    have hmem := hcolumns hname
    change name ∈ [instrumentId, "close"]
    simpa using hmem
  ids := List.mem_cons_self
  lengths entry hentry := by
    simp only [sampleLoad, List.mem_cons, List.not_mem_nil, or_false] at hentry
    rcases hentry with rfl | rfl
    · rfl
    · exact List.length_map _
  scope ids hids id hid := by
    obtain rfl : sampleIds missing = ids := Option.some.inj hids
    exact of_decide_eq_true (List.mem_filter.mp hid).2
  timelines ids hids instrument hinstrument := by
    obtain rfl : sampleIds missing = ids := Option.some.inj hids
    have hall : ∀ missing ∈ ({1, 2} : Finset Nat).powerset, ∀ instrument ∈ missing,
        ∀ entry ∈ (sampleLoad missing).columns,
          valuesOf (sampleIds missing) entry.2 instrument =
            (sampleContent (10 + instrument)).column entry.1 := by
      decide
    exact hall missing (Finset.mem_powerset.mpr hmissing) instrument hinstrument

/-- The budget holds one object: the second call widens that of the first one and evicts it for that
of the other instrument, so that the third call loads it again. -/
theorem cache_transparent_sample :
    let calls : List (Call Nat Nat) := [.read 11 {"close"} ⟨1, [("close", [7])]⟩,
      .readInstruments 10 {instrumentId, "close"} {1, 2} sampleLoad,
      .read 11 {"close"} ⟨1, [("close", [7])]⟩]
    (∀ call ∈ calls, Faithful sampleContent (· + ·) call ∧ NamesInstrument call) ∧
      ∃ results, serveAll (fun table => table.numRows + 1) (· + ·) (LruCache.empty 2) calls =
        .ok results ∧ List.Forall₂ Transparent calls results := by
  intro calls
  have hread : Faithful sampleContent (· + ·) (.read 11 {"close"} ⟨1, [("close", [7])]⟩) := by
    refine ⟨⟨rfl, by decide⟩, fun name => ?_⟩
    simp [Table.columnNames]
  have hcalls : ∀ call ∈ calls, Faithful sampleContent (· + ·) call ∧ NamesInstrument call := by
    intro call hmem
    simp only [calls, List.mem_cons, List.not_mem_nil, or_false] at hmem
    rcases hmem with rfl | rfl | rfl
    · exact ⟨hread, trivial⟩
    · exact ⟨fun missing hmissing => sampleLoad_timelines hmissing (Finset.Subset.refl _),
        Finset.insert_nonempty 1 {2}⟩
    · exact ⟨hread, trivial⟩
  exact ⟨hcalls, cache_transparent _ _ _ _ calls hcalls⟩

/-- A call for no instrument raises, where its loader returns a table without rows. -/
theorem no_instruments_raise :
    let call : Call Nat Nat := .readInstruments 10 {"close"} ∅ sampleLoad
    Faithful sampleContent (· + ·) call ∧
      serveAll (fun table => table.numRows + 1) (· + ·) (LruCache.empty 2) [call] =
        .error .arrowInvalid := by
  refine ⟨fun missing hmissing => sampleLoad_timelines
    (hmissing.trans (Finset.empty_subset _)) (by decide), ?_⟩
  simp [serveAll, serve, readInstruments, cachedTimelines, concatTables, Finset.sort_empty, bind,
    Except.bind]

end Sample

end ThesisTrace.HistoryProjection
