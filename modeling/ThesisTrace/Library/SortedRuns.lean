import Mathlib.Data.List.Sort

/-!
# Runs of a sorted column

The rows of a table are sorted by a key column, with equal keys in their old order, and the sorted
column is cut into runs of equal keys. The stretch of a run holds the values of its key, in the old
order.
-/

namespace SortedRuns

variable {α β : Type*}

/-- The values at the given positions. -/
def takeAt (positions : List ℕ) (values : List β) : List β :=
  positions.filterMap fun i => values[i]?

/-- The values that stand beside a key. -/
def valuesOf [DecidableEq α] (keys : List α) (values : List β) (key : α) : List β :=
  ((keys.zip values).filter fun row => row.1 = key).map Prod.snd

/-- Each run with its start and its end, from `start` on. -/
def runBounds (start : ℕ) : List (α × ℕ) → List (α × ℕ × ℕ)
  | [] => []
  | (key, n) :: rest => (key, start, start + n) :: runBounds (start + n) rest

/-- The column with the given runs. -/
def expand (runs : List (α × ℕ)) : List α := runs.flatMap fun run => List.replicate run.2 run.1

/-- The runs of equal keys, with their lengths. -/
def runs [DecidableEq α] : List α → List (α × ℕ)
  | [] => []
  | key :: keys =>
    match runs keys with
    | [] => [(key, 1)]
    | (key', n) :: rest =>
      if key = key' then (key, n + 1) :: rest else (key, 1) :: (key', n) :: rest

/-- The start and the end of the run of a key, `(0, 0)` when there is none. -/
def boundsOf [DecidableEq α] (keys : List α) (key : α) : ℕ × ℕ :=
  (((runBounds 0 (runs keys)).find? fun run => run.1 = key).map Prod.snd).getD (0, 0)

/-- The positions of a column in the order of its keys. -/
def sortIndices [LinearOrder α] (keys : List α) : List ℕ :=
  (keys.zipIdx.mergeSort fun a b => a.1 ≤ b.1).map Prod.snd

lemma mem_of_mem_takeAt {positions : List ℕ} {values : List β} {value : β}
    (h : value ∈ takeAt positions values) : value ∈ values := by
  obtain ⟨i, -, hi⟩ := List.mem_filterMap.mp h
  exact List.mem_of_getElem? hi

lemma takeAt_range' (start n : ℕ) (values : List β) :
    takeAt (List.range' start n) values = (values.drop start).take n := by
  induction n generalizing start with
  | zero => rfl
  | succ n ih =>
    rw [List.range'_succ, takeAt, List.filterMap_cons]
    cases h : values[start]? with
    | none =>
      have hdrop : values.drop start = [] :=
        List.drop_eq_nil_of_le (List.getElem?_eq_none_iff.mp h)
      have hrest := ih (start + 1)
      rw [takeAt, List.drop_eq_nil_of_le
        ((List.getElem?_eq_none_iff.mp h).trans (Nat.le_succ start)), List.take_nil] at hrest
      rw [hdrop, List.take_nil, ← hrest]
    | some value =>
      obtain ⟨hlt, hvalue⟩ := List.getElem?_eq_some_iff.mp h
      rw [List.drop_eq_getElem_cons hlt, List.take_succ_cons, hvalue, ← ih (start + 1)]
      rfl

lemma length_takeAt {positions : List ℕ} {values : List β}
    (h : ∀ i ∈ positions, i < values.length) :
    (takeAt positions values).length = positions.length := by
  induction positions with
  | nil => rfl
  | cons i positions ih =>
    rw [takeAt, List.filterMap_cons, List.getElem?_eq_getElem (h i List.mem_cons_self)]
    exact congrArg _ (ih fun i hi => h i (List.mem_cons_of_mem _ hi))

lemma takeAt_zipIdx {keys : List α} {values : List β} (hlen : values.length = keys.length) :
    takeAt (keys.zipIdx.map Prod.snd) values = values := by
  rw [List.zipIdx_map_snd, takeAt_range', List.drop_zero, ← hlen, List.take_length]

section Runs

variable [DecidableEq α]

lemma expand_runs (keys : List α) : expand (runs keys) = keys := by
  induction keys with
  | nil => rfl
  | cons key keys ih =>
    unfold runs
    split
    · next hnil =>
      rw [hnil] at ih
      rw [← ih]
      rfl
    · next key' n rest hrest =>
      rw [hrest] at ih
      split
      · next heq =>
        subst heq
        rw [← ih]
        simp [expand, List.replicate_succ]
      · rw [← ih]
        simp [expand]

/-- The head of the first run is the head of the column. -/
lemma head_runs {keys rest : List α} {key key' : α} {n : ℕ} {tail : List (α × ℕ)}
    (hkeys : keys = key :: rest) (h : runs keys = (key', n) :: tail) : key' = key := by
  subst hkeys
  unfold runs at h
  split at h
  · cases h
    rfl
  · split at h <;> cases h <;> rfl

lemma mem_runs {keys : List α} {run : α × ℕ} (h : run ∈ runs keys) : run.1 ∈ keys := by
  induction keys generalizing run with
  | nil => cases h
  | cons key keys ih =>
    unfold runs at h
    split at h
    · obtain rfl := List.mem_singleton.mp h
      exact List.mem_cons_self
    · next key' n rest hrest =>
      rw [hrest] at ih
      split at h
      · next heq =>
        rcases List.mem_cons.mp h with rfl | h
        · exact List.mem_cons_self
        · exact List.mem_cons_of_mem _ (ih (List.mem_cons_of_mem _ h))
      · rcases List.mem_cons.mp h with rfl | h
        · exact List.mem_cons_self
        · exact List.mem_cons_of_mem _ (ih h)

lemma valuesOf_append {keys keys' : List α} {values values' : List β} {key : α}
    (h : keys.length = values.length) :
    valuesOf (keys ++ keys') (values ++ values') key =
      valuesOf keys values key ++ valuesOf keys' values' key := by
  simp only [valuesOf, List.zip_append h, List.filter_append, List.map_append]

lemma valuesOf_replicate (key : α) (values : List β) :
    valuesOf (List.replicate values.length key) values key = values := by
  induction values with
  | nil => rfl
  | cons value values ih =>
    rw [List.length_cons, List.replicate_succ]
    simp only [valuesOf, List.zip_cons_cons, decide_true, List.filter_cons_of_pos, List.map_cons]
    exact congrArg _ ih

lemma valuesOf_of_notMem {keys : List α} {values : List β} {key : α} (h : key ∉ keys) :
    valuesOf keys values key = [] := by
  rw [valuesOf, List.filter_eq_nil_iff.mpr, List.map_nil]
  rintro ⟨key', value⟩ hrow heq
  rw [decide_eq_true_eq] at heq
  exact h (heq ▸ (List.of_mem_zip hrow).1)

/-- The stretch of a run holds the values of its key. -/
lemma take_runBounds {rows : List (α × ℕ)} (hnodup : (rows.map Prod.fst).Nodup) (key : α)
    (front values : List β) (hlen : (expand rows).length = values.length) :
    let bounds := (((runBounds front.length rows).find? fun run => run.1 = key).map
      Prod.snd).getD (0, 0)
    ((front ++ values).drop bounds.1).take (bounds.2 - bounds.1) =
      valuesOf (expand rows) values key := by
  induction rows generalizing front values with
  | nil => simp [runBounds, expand, valuesOf]
  | cons row rows ih =>
    obtain ⟨key', n⟩ := row
    rw [List.map_cons, List.nodup_cons] at hnodup
    have hexpand : expand ((key', n) :: rows) = List.replicate n key' ++ expand rows := rfl
    rw [hexpand, List.length_append, List.length_replicate] at hlen
    obtain ⟨first, second, rfl, hfirst⟩ : ∃ first second, values = first ++ second ∧
        first.length = n := ⟨values.take n, values.drop n, (List.take_append_drop n values).symm,
      List.length_take_of_le (by omega)⟩
    subst hfirst
    rw [hexpand, valuesOf_append (List.length_replicate ..), runBounds, List.find?_cons]
    by_cases hkey : key' = key
    · subst hkey
      have hrest : key' ∉ expand rows := by
        intro hmem
        obtain ⟨run, hrun, hmem⟩ := List.mem_flatMap.mp hmem
        exact hnodup.1 (List.mem_map.mpr ⟨run, hrun, (List.eq_of_mem_replicate hmem).symm⟩)
      rw [valuesOf_replicate, valuesOf_of_notMem hrest, List.append_nil]
      simp
    · have hnone : valuesOf (List.replicate first.length key') first key = [] :=
        valuesOf_of_notMem fun h => hkey (List.eq_of_mem_replicate h).symm
      have htail := ih hnodup.2 (front ++ first) second (by
        rw [List.length_append] at hlen
        omega)
      rw [List.length_append, List.append_assoc] at htail
      rw [hnone, List.nil_append, ← htail]
      simp [hkey]

omit [DecidableEq α] in
lemma end_le_of_mem_runBounds {rows : List (α × ℕ)} {start : ℕ} {run : α × ℕ × ℕ}
    (h : run ∈ runBounds start rows) : run.2.2 ≤ start + (expand rows).length := by
  induction rows generalizing start with
  | nil => cases h
  | cons row rows ih =>
    obtain ⟨key, n⟩ := row
    have hexpand : (expand ((key, n) :: rows)).length = n + (expand rows).length := by
      simp [expand]
    rcases List.mem_cons.mp h with rfl | h
    · simp only [hexpand]
      omega
    · have hrest := ih h
      omega

lemma boundsOf_le (keys : List α) (key : α) : (boundsOf keys key).2 ≤ keys.length := by
  unfold boundsOf
  cases hfind : (runBounds 0 (runs keys)).find? fun run => run.1 = key with
  | none => exact Nat.zero_le _
  | some run =>
    have hle := end_le_of_mem_runBounds (List.mem_of_find?_eq_some hfind)
    rw [expand_runs, Nat.zero_add] at hle
    exact hle

/-- The stretch of a run lies on the column. -/
lemma lt_length_of_mem_stretch {keys : List α} {key : α} {i : ℕ}
    (h : i ∈ List.range' (boundsOf keys key).1 ((boundsOf keys key).2 - (boundsOf keys key).1)) :
    i < keys.length := by
  have hle := boundsOf_le keys key
  have hlt := List.mem_range'_1.mp h
  omega

end Runs

section Sorted

variable [LinearOrder α]

/-- The runs of a sorted column have distinct keys. -/
lemma runs_nodup {keys : List α} (h : keys.Pairwise (· ≤ ·)) :
    ((runs keys).map Prod.fst).Nodup := by
  induction keys with
  | nil => exact List.nodup_nil
  | cons key keys ih =>
    obtain ⟨hhead, htail⟩ := List.pairwise_cons.mp h
    have hrest := ih htail
    unfold runs
    split
    · exact List.nodup_singleton _
    · next key' n rest hruns =>
      rw [hruns] at hrest
      split
      · next heq =>
        subst heq
        exact hrest
      · next hne =>
        refine List.nodup_cons.mpr ⟨fun hmem => hne ?_, hrest⟩
        obtain ⟨run, hrun, hkey⟩ := List.mem_map.mp hmem
        have hin : key ∈ keys := by
          have hrun' := mem_runs (hruns ▸ hrun : run ∈ runs keys)
          rwa [show run.1 = key from hkey] at hrun'
        -- the first key of the rest lies between `key` and its later occurrence
        cases hkeys : keys with
        | nil =>
          rw [hkeys] at hin
          cases hin
        | cons first others =>
          obtain rfl := head_runs hkeys hruns
          subst hkeys
          refine le_antisymm (hhead _ List.mem_cons_self) ?_
          rcases List.mem_cons.mp hin with rfl | hin
          · exact le_rfl
          · exact (List.pairwise_cons.mp htail).1 _ hin

def rowLe (a b : α × ℕ) : Bool := a.1 ≤ b.1

/-- The rows of a table in the order of their keys. -/
def sortedRows (keys : List α) : List (α × ℕ) := keys.zipIdx.mergeSort rowLe

lemma rowLe_trans (a b c : α × ℕ) (hab : rowLe a b) (hbc : rowLe b c) : rowLe a c := by
  simp only [rowLe, decide_eq_true_eq] at hab hbc ⊢
  exact hab.trans hbc

lemma rowLe_total (a b : α × ℕ) : (rowLe a b || rowLe b a) = true := by
  simpa [rowLe] using le_total a.1 b.1

lemma sortedRows_perm (keys : List α) : (sortedRows keys).Perm keys.zipIdx :=
  List.mergeSort_perm _ _

lemma sortedRows_pairwise (keys : List α) :
    ((sortedRows keys).map Prod.fst).Pairwise (· ≤ ·) := by
  rw [List.pairwise_map]
  exact (List.pairwise_mergeSort rowLe_trans rowLe_total keys.zipIdx).imp fun h => by
    simpa [rowLe] using h

/-- Rows of one key keep their order. -/
lemma filter_sortedRows (keys : List α) (key : α) :
    (sortedRows keys).filter (fun row => row.1 = key) =
      keys.zipIdx.filter fun row => row.1 = key := by
  have hpairwise : (keys.zipIdx.filter fun row => row.1 = key).Pairwise fun a b =>
      rowLe a b = true := by
    refine List.pairwise_of_forall_mem_list fun a ha b hb => ?_
    have ha := (List.mem_filter.mp ha).2
    have hb := (List.mem_filter.mp hb).2
    simp only [decide_eq_true_eq] at ha hb
    simp [rowLe, ha, hb]
  have hsub := (List.sublist_mergeSort rowLe_trans rowLe_total hpairwise
    List.filter_sublist).filter fun row => decide (row.1 = key)
  rw [List.filter_filter] at hsub
  simp only [Bool.and_self] at hsub
  exact (hsub.eq_of_length
    (((sortedRows_perm keys).filter fun row => decide (row.1 = key)).length_eq).symm).symm

lemma sortIndices_eq (keys : List α) : sortIndices keys = (sortedRows keys).map Prod.snd := rfl

/-- The values of rows whose positions all lie on the column. -/
lemma valuesOf_rows {values : List β} {rows : List (α × ℕ)}
    (h : ∀ row ∈ rows, row.2 < values.length) (key : α) :
    valuesOf (rows.map Prod.fst) (takeAt (rows.map Prod.snd) values) key =
      takeAt ((rows.filter fun row => row.1 = key).map Prod.snd) values := by
  induction rows with
  | nil => rfl
  | cons row rows ih =>
    obtain ⟨value, hvalue⟩ : ∃ value, values[row.2]? = some value :=
      ⟨_, List.getElem?_eq_getElem (h row List.mem_cons_self)⟩
    have hrest := ih fun row hmem => h row (List.mem_cons_of_mem _ hmem)
    have htake : ∀ positions, takeAt (row.2 :: positions) values =
        value :: takeAt positions values := fun positions => by
      simp only [takeAt, List.filterMap_cons, hvalue]
    rw [List.map_cons, List.map_cons, htake, List.filter_cons]
    by_cases hkey : row.1 = key
    · simp only [hkey, decide_true, if_true, List.map_cons, htake, ← hrest, valuesOf,
        List.zip_cons_cons, List.filter_cons_of_pos]
    · simp only [hkey, decide_false, Bool.false_eq_true, if_false, ← hrest]
      simp only [valuesOf, List.zip_cons_cons, List.filter_cons, hkey, decide_false,
        Bool.false_eq_true, if_false]

lemma mem_sortedRows {keys : List α} {row : α × ℕ} (h : row ∈ sortedRows keys) :
    keys[row.2]? = some row.1 :=
  List.mem_zipIdx_iff_getElem?.mp ((sortedRows_perm keys).mem_iff.mp h)

lemma takeAt_sortIndices (keys : List α) :
    takeAt (sortIndices keys) keys = (sortedRows keys).map Prod.fst := by
  have h : ∀ rows : List (α × ℕ), (∀ row ∈ rows, keys[row.2]? = some row.1) →
      takeAt (rows.map Prod.snd) keys = rows.map Prod.fst := by
    intro rows hrows
    induction rows with
    | nil => rfl
    | cons row rows ih =>
      rw [List.map_cons, List.map_cons, takeAt, List.filterMap_cons, hrows row List.mem_cons_self]
      exact congrArg _ (ih fun row hmem => hrows row (List.mem_cons_of_mem _ hmem))
  exact h _ fun row hrow => mem_sortedRows hrow

/-- After a stable sort by a key column, the run of a key holds its values in the old order. -/
theorem takeAt_run {keys : List α} {values : List β} (hlen : values.length = keys.length)
    (key : α) :
    let bounds := boundsOf (takeAt (sortIndices keys) keys) key
    takeAt (List.range' bounds.1 (bounds.2 - bounds.1)) (takeAt (sortIndices keys) values) =
      valuesOf keys values key := by
  intro bounds
  have hkeys := takeAt_sortIndices keys
  have hrows : ∀ row ∈ sortedRows keys, row.2 < values.length := by
    intro row hrow
    rw [hlen]
    exact (List.getElem?_eq_some_iff.mp (mem_sortedRows hrow)).1
  have hzip : ∀ row ∈ keys.zipIdx, row.2 < values.length := fun row hrow =>
    hrows row ((sortedRows_perm keys).mem_iff.mpr hrow)
  have hlength : (takeAt (sortIndices keys) values).length = (sortedRows keys).length := by
    rw [sortIndices_eq, length_takeAt, List.length_map]
    intro i hi
    obtain ⟨row, hrow, rfl⟩ := List.mem_map.mp hi
    exact hrows row hrow
  have hrun := take_runBounds (runs_nodup (sortedRows_pairwise keys)) key []
    (takeAt (sortIndices keys) values) (by rw [expand_runs, List.length_map, hlength])
  rw [expand_runs] at hrun
  calc takeAt (List.range' bounds.1 (bounds.2 - bounds.1)) (takeAt (sortIndices keys) values)
      = valuesOf ((sortedRows keys).map Prod.fst) (takeAt (sortIndices keys) values) key := by
        rw [takeAt_range', ← hrun, ← hkeys]
        rfl
    _ = takeAt (((sortedRows keys).filter fun row => row.1 = key).map Prod.snd) values :=
        valuesOf_rows hrows key
    _ = takeAt ((keys.zipIdx.filter fun row => row.1 = key).map Prod.snd) values := by
        rw [filter_sortedRows]
    _ = valuesOf (keys.zipIdx.map Prod.fst) (takeAt (keys.zipIdx.map Prod.snd) values) key :=
        (valuesOf_rows hzip key).symm
    _ = valuesOf keys values key := by rw [List.zipIdx_map_fst, takeAt_zipIdx hlen]

end Sorted

end SortedRuns
