import Mathlib.Data.List.Dedup
import Mathlib.Data.List.Sort
import ThesisTrace.Factor.Chunks
import ThesisTrace.Library.Buckets
import ThesisTrace.Library.FirstError

/-!
# Rows of an Alpha matrix

The columnar evaluation of an Alpha gives a number for each instrument and session. A row of the
Alpha matrix holds the finite numbers of the Universe, sorted by instrument, and counts the others;
industry neutralization takes the mean of its industry from each number.
-/

namespace ThesisTrace.Factor.AlphaMatrix
open Transaction Buckets

variable {S I K V O ε : Type}

inductive Neutralization
  | none
  | industry
  deriving DecidableEq, Repr

/-- The binary64 operations on the values of a session. -/
structure RowArithmetic (V ε : Type) where
  isFinite : V → Bool
  /-- `math.fsum(values) / len(values)`, which may overflow -/
  mean : List V → Except ε V
  /-- `finite_or_missing(value - mean) or 0.0` -/
  residual : V → V → V

/-- A session of an Alpha matrix. -/
structure Row (S I V O : Type) where
  session : S
  values : List (I × V)
  coverageLoss : List (AlphaExclusion × Nat)
  commonInputs : Option (List O)
  deriving DecidableEq, Repr

/-- The members of the Universe and their industries. A member is listed once. -/
structure UniverseData (S I K : Type) where
  members : S → List I
  members_nodup : ∀ session, (members session).Nodup
  industry : S → I → Option K

/-- What the evaluation of a chunk gives. -/
structure Evaluation (S I V O : Type) where
  value : I → S → V
  commonObservations : S → Option (List O)

/-- `research_data.universe_members.get(session, ())` in a slice of the sessions. -/
def UniverseData.membersIn [DecidableEq S] (data : UniverseData S I K) (calendar : List S)
    (session : S) : List I :=
  if session ∈ calendar then data.members session else []

/-- `tuple(sorted(research_data.universe_members.get(session, ())))` -/
def UniverseData.sortedMembers [DecidableEq S] [LinearOrder I] (data : UniverseData S I K)
    (calendar : List S) (session : S) : List I :=
  (data.membersIn calendar session).insertionSort (· ≤ ·)

/-- The sorted members of a session, which is the axis of its row. -/
def UniverseData.axis [LinearOrder I] (data : UniverseData S I K) (session : S) : List I :=
  (data.members session).insertionSort (· ≤ ·)

section Compose
variable [DecidableEq S] [LinearOrder I] [DecidableEq K] (a : RowArithmetic V ε)
  (data : UniverseData S I K) (calendar : List S) (evaluation : Evaluation S I V O)

/-- A session in `_compose_unneutralized_columnar_alpha_matrix`. -/
def composeUnneutralized (session : S) : Row S I V O :=
  let instrumentIds := data.sortedMembers calendar session
  let finite := instrumentIds.filter fun instrument =>
    a.isFinite (evaluation.value instrument session)
  { session := session
    values := finite.map fun instrument => (instrument, evaluation.value instrument session)
    coverageLoss := counted [.missingExpression] fun _ => instrumentIds.length - finite.length
    commonInputs := evaluation.commonObservations session }

/-- The groups of a dictionary, in the order in which their keys were first seen. -/
def groupRows (rows : List (K × (I × V))) : List (List (I × V)) :=
  ((rows.map Prod.fst).reverse.dedup.reverse).map fun industry => itemsOf industry rows

/-- A group too small to have a mean keeps no value. -/
def neutralizeGroup (rows : List (I × V)) : Except ε (List (I × V)) :=
  if rows.length < 2 then .ok []
  else do
    let mean ← a.mean (rows.map Prod.snd)
    pure (rows.map fun row => (row.1, a.residual row.2 mean))

/-- A session in `_compose_alpha_matrix` with industry neutralization. -/
def composeNeutralized (session : S) : Except ε (Row S I V O) := do
  let members := data.membersIn calendar session
  let rawValues := (members.filter fun instrument =>
    a.isFinite (evaluation.value instrument session)).map fun instrument =>
      (instrument, evaluation.value instrument session)
  let grouped := rawValues.filterMap fun row =>
    (data.industry session row.1).map fun industry => (industry, row)
  let groups := groupRows grouped
  let finalValues ← groups.mapM (neutralizeGroup a)
  pure
    { session := session
      values := finalValues.flatten.insertionSort fun x y => x.1 ≤ y.1
      coverageLoss := counted AlphaExclusion.all fun
        | .industryGroupTooSmall => (groups.filter fun rows => rows.length < 2).flatten.length
        | .missingExpression => members.length - rawValues.length
        | .missingIndustry => rawValues.length - grouped.length
      commonInputs := evaluation.commonObservations session }

/-- `evaluate_columnar_alpha_sessions` -/
def evaluateSessions (neutralization : Neutralization) : Except ε (List (Row S I V O)) :=
  calendar.mapM fun session =>
    match neutralization with
    | .none => .ok (composeUnneutralized a data calendar evaluation session)
    | .industry => composeNeutralized a data calendar evaluation session

end Compose

/-! ### Groups -/

section Groups
variable [DecidableEq K] (a : RowArithmetic V ε)

/-- The rows that get a key are the rows that have one. -/
lemma map_snd_keyed {α κ : Type} (key : α → Option κ) (rows : List α) :
    (rows.filterMap fun row => (key row).map fun k => (k, row)).map Prod.snd =
      rows.filter fun row => (key row).isSome := by
  induction rows with
  | nil => rfl
  | cons row rows ih =>
    cases hkey : key row with
    | none => simp [hkey, ih]
    | some k => simp [hkey, ih]

lemma mem_groupRows {rows : List (K × (I × V))} {row : I × V}
    (h : row ∈ (groupRows rows).flatten) : ∃ industry, (industry, row) ∈ rows := by
  obtain ⟨group, hgroup, hrow⟩ := List.mem_flatten.mp h
  obtain ⟨industry, -, rfl⟩ := List.mem_map.mp hgroup
  obtain ⟨⟨industry', row'⟩, hmem, rfl⟩ := List.mem_map.mp hrow
  exact ⟨industry', List.mem_of_mem_filter hmem⟩

/-- Every instrument is in one group, once. -/
lemma groupRows_nodup {rows : List (K × (I × V))} (h : (rows.map fun row => row.2.1).Nodup) :
    ((groupRows rows).flatten.map Prod.fst).Nodup := by
  have hinstrument : ∀ x ∈ rows, ∀ y ∈ rows, x.2.1 = y.2.1 → x = y := fun x hx y hy =>
    List.inj_on_of_nodup_map h hx hy
  have hflatten : (groupRows rows).flatten.map Prod.fst =
      (rows.map Prod.fst).reverse.dedup.reverse.flatMap fun industry =>
        (itemsOf industry rows).map Prod.fst := by
    rw [groupRows, List.map_flatten, List.map_map, List.flatMap_def]
    rfl
  rw [hflatten, List.nodup_flatMap]
  constructor
  · intro industry _
    rw [itemsOf, List.map_map]
    exact h.sublist (List.filter_sublist.map _)
  · have hkeys : (rows.map Prod.fst).reverse.dedup.reverse.Nodup :=
      List.nodup_reverse.mpr (List.nodup_dedup _)
    refine hkeys.imp fun {k k'} hne instrument hmem hmem' => hne ?_
    simp only [itemsOf, List.map_map, List.mem_map, List.mem_filter, decide_eq_true_eq]
      at hmem hmem'
    obtain ⟨x, ⟨hx, rfl⟩, hxi⟩ := hmem
    obtain ⟨y, ⟨hy, rfl⟩, hyi⟩ := hmem'
    rw [hinstrument x hx y hy (hxi.trans hyi.symm)]

/-- The neutralized values of a group are those of its instruments, or none. -/
lemma neutralizeGroup_instruments {rows rows' : List (I × V)}
    (h : neutralizeGroup a rows = .ok rows') :
    (rows'.map Prod.fst).Sublist (rows.map Prod.fst) := by
  rw [neutralizeGroup] at h
  split at h
  · obtain rfl := Except.ok.inj h
    exact List.nil_sublist _
  · obtain ⟨mean, -, hrows⟩ := bind_ok_iff.mp h
    obtain rfl := pure_ok_iff.mp hrows
    rw [List.map_map]
    exact List.Sublist.refl _

lemma mapM_neutralizeGroup_instruments {groups values : List (List (I × V))}
    (h : groups.mapM (neutralizeGroup a) = .ok values) :
    (values.flatten.map Prod.fst).Sublist (groups.flatten.map Prod.fst) := by
  have hgroups := forall₂_of_mapM h
  clear h
  induction hgroups with
  | nil => exact List.Sublist.refl _
  | cons hgroup _ ih =>
    rw [List.flatten_cons, List.flatten_cons, List.map_append, List.map_append]
    exact (neutralizeGroup_instruments a hgroup).append ih

end Groups

/-! ### The instruments of a row -/

section Instruments
variable {data : UniverseData S I K}

lemma UniverseData.axis_sorted [LinearOrder I] (data : UniverseData S I K) (session : S) :
    (data.axis session).Pairwise (· < ·) := by
  have hnodup : (data.axis session).Nodup :=
    (List.perm_insertionSort _ _).nodup_iff.mpr (data.members_nodup session)
  exact (List.pairwise_insertionSort (· ≤ ·) _).imp₂ (fun _ _ hle hne => lt_of_le_of_ne hle hne)
    hnodup

variable [DecidableEq S]

lemma UniverseData.membersIn_nodup (calendar : List S) (session : S) :
    (data.membersIn calendar session).Nodup := by
  rw [membersIn]
  split
  · exact data.members_nodup session
  · exact List.nodup_nil

variable [LinearOrder I]

lemma UniverseData.sortedMembers_of_mem {calendar : List S} {session : S}
    (h : session ∈ calendar) : data.sortedMembers calendar session = data.axis session := by
  rw [sortedMembers, membersIn, if_pos h, axis]

variable (a : RowArithmetic V ε) (evaluation : Evaluation S I V O)

lemma composeUnneutralized_instruments (calendar : List S) (session : S) :
    ((composeUnneutralized a data calendar evaluation session).values.map Prod.fst).Sublist
      (data.sortedMembers calendar session) := by
  rw [composeUnneutralized, List.map_map]
  exact (List.map_id _).symm ▸ List.filter_sublist

variable [DecidableEq K]

/-- The neutralized values belong to different members, in their order. -/
lemma composeNeutralized_instruments {calendar : List S} {session : S} {row : Row S I V O}
    (h : composeNeutralized a data calendar evaluation session = .ok row) :
    row.session = session ∧
      (row.values.map Prod.fst).Sublist (data.sortedMembers calendar session) := by
  obtain ⟨finalValues, hfinal, hrow⟩ := bind_ok_iff.mp h
  obtain rfl := pure_ok_iff.mp hrow
  refine ⟨rfl, ?_⟩
  dsimp only
  generalize hraw : ((data.membersIn calendar session).filter fun instrument =>
    a.isFinite (evaluation.value instrument session)).map (fun instrument =>
      (instrument, evaluation.value instrument session)) = rawValues at hfinal ⊢
  have hrawNodup : (rawValues.map Prod.fst).Nodup := by
    rw [← hraw, List.map_map]
    exact (List.map_id _).symm ▸ (data.membersIn_nodup calendar session).filter _
  have hrawMembers : ∀ row ∈ rawValues, row.1 ∈ data.membersIn calendar session := by
    rw [← hraw]
    intro row hrow
    obtain ⟨instrument, hmem, rfl⟩ := List.mem_map.mp hrow
    exact List.mem_of_mem_filter hmem
  generalize hgrouped : rawValues.filterMap (fun row =>
    (data.industry session row.1).map fun industry => (industry, row)) = grouped at hfinal
  have hgroupedRow : ∀ entry ∈ grouped, entry.2 ∈ rawValues := by
    rw [← hgrouped]
    intro entry hentry
    obtain ⟨row, hrow, hsome⟩ := List.mem_filterMap.mp hentry
    obtain ⟨industry, -, rfl⟩ := Option.map_eq_some_iff.mp hsome
    exact hrow
  have hgroupedNodup : (grouped.map fun row => row.2.1).Nodup := by
    have hsublist : (grouped.map Prod.snd).Sublist rawValues := by
      rw [← hgrouped, map_snd_keyed]
      exact List.filter_sublist
    have hids := hrawNodup.sublist (hsublist.map Prod.fst)
    rwa [List.map_map] at hids
  have hsublist := mapM_neutralizeGroup_instruments a hfinal
  have hnodup : (finalValues.flatten.map Prod.fst).Nodup :=
    (groupRows_nodup hgroupedNodup).sublist hsublist
  have hmembers : finalValues.flatten.map Prod.fst ⊆ data.membersIn calendar session := by
    intro instrument hinstrument
    obtain ⟨row, hrow, rfl⟩ := List.mem_map.mp (hsublist.subset hinstrument)
    obtain ⟨industry, hentry⟩ := mem_groupRows hrow
    exact hrawMembers row (hgroupedRow _ hentry)
  have hsorted : (finalValues.flatten.insertionSort fun x y => x.1 ≤ y.1).map Prod.fst =
      (finalValues.flatten.map Prod.fst).insertionSort (· ≤ ·) :=
    List.map_insertionSort _ _ _ _ fun _ _ _ _ => Iff.rfl
  rw [hsorted]
  exact List.sublist_insertionSort' (List.pairwise_insertionSort _ _)
    ((List.perm_insertionSort _ _).subperm.trans (hnodup.subperm hmembers))

/-- The values of a row belong to different members of the Universe, in their order. -/
lemma evaluateSessions_instruments {calendar : List S} {neutralization : Neutralization}
    {rows : List (Row S I V O)}
    (h : evaluateSessions a data calendar evaluation neutralization = .ok rows) :
    ∀ row ∈ rows, row.session ∈ calendar ∧
      (row.values.map Prod.fst).Sublist (data.sortedMembers calendar row.session) := by
  intro row hrow
  obtain ⟨session, hsession, hcompose⟩ := (mapM_mem h).2 row hrow
  cases neutralization with
  | none =>
    obtain rfl := Except.ok.inj hcompose
    exact ⟨hsession, composeUnneutralized_instruments a evaluation calendar session⟩
  | industry =>
    obtain ⟨rfl, hsublist⟩ := composeNeutralized_instruments a evaluation hcompose
    exact ⟨hsession, hsublist⟩

end Instruments

end ThesisTrace.Factor.AlphaMatrix
