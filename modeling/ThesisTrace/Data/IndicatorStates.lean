import ThesisTrace.Data.IndicatorSeries

/-!
# States of indicators

A group of simultaneous rows is one state, a report keeps the last state of its own, and the latest
report is selected. None of this depends on the order of the rows, and the value of a column depends
on this column alone.
-/

namespace ThesisTrace.IndicatorSeries
open Transaction IndicatorVersions KeyOrder

lemma nodup_eraseDups {α : Type*} [BEq α] [LawfulBEq α] (l : List α) : l.eraseDups.Nodup := by
  induction hlength : l.length using Nat.strong_induction_on generalizing l with
  | _ n ih =>
    cases l with
    | nil => exact List.nodup_nil
    | cons a l =>
      rw [List.eraseDups_cons]
      refine List.nodup_cons.mpr ⟨?_, ih _ ?_ _ rfl⟩
      · simp
      · rw [← hlength, List.length_cons]
        exact Nat.lt_succ_of_le (List.length_filter_le _ _)

section States

variable {W W' T : Type} [LinearOrder T] {agree : W → List W → W} {agree' : W' → List W' → W'}
  {same : Fact W T → Fact W T → Bool} {rows rows' facts facts' : List (Fact W T)}
  {state first : Fact W T} {rest : List (Fact W T)} {states states' : States W T}

/-! ### Groups -/

omit [LinearOrder T] in
@[simp] lemma groupKey_agreeingState : (agreeingState agree first rest).groupKey = first.groupKey := by
  cases rest <;> rfl

omit [LinearOrder T] in
lemma groupKey_eq_of {a b : Fact W T} (hreport : a.reportKey = b.reportKey)
    (horder : a.order = b.order) : a.groupKey = b.groupKey := by
  obtain ⟨hperiod, hpublished⟩ := Prod.mk.inj (toLex_inj.mp hreport)
  obtain ⟨hsession, hevent⟩ := Prod.mk.inj (toLex_inj.mp horder)
  rw [Fact.groupKey, Fact.groupKey, hperiod, hevent, hsession]
  exact congrArg (fun published => (b.sourceReportPeriod, published, b.observationEventAt,
    b.stateEffectiveSession)) hpublished

/-- A state stands for the group of its key. -/
lemma mem_agreeingObservationStates : state ∈ agreeingObservationStates agree rows ↔
    ∃ first rest, rows.filter (fun row => row.groupKey = state.groupKey) = first :: rest ∧
      state = agreeingState agree first rest := by
  rw [agreeingObservationStates, List.mem_filterMap]
  constructor
  · rintro ⟨key, -, hstate⟩
    split at hstate
    · cases hstate
    next first rest hgroup =>
      have hkey : first.groupKey = key := by
        have hfirst : first ∈ rows.filter fun row => row.groupKey = key :=
          hgroup ▸ List.mem_cons_self
        exact of_decide_eq_true (List.mem_filter.mp hfirst).2
      obtain rfl := Option.some.inj hstate
      refine ⟨first, rest, ?_, rfl⟩
      rw [groupKey_agreeingState, hkey, hgroup]
  · rintro ⟨first, rest, hgroup, hstate⟩
    have hfirst : first ∈ rows.filter fun row => row.groupKey = state.groupKey :=
      hgroup ▸ List.mem_cons_self
    refine ⟨state.groupKey, List.mem_eraseDups.mpr (List.mem_map.mpr
      ⟨first, (List.mem_filter.mp hfirst).1, of_decide_eq_true (List.mem_filter.mp hfirst).2⟩), ?_⟩
    rw [hgroup, hstate]

omit [LinearOrder T] in
/-- What is made for a key keeps it. -/
lemma keys_filterMap_sublist {α κ : Type} {make : κ → Option α} {key : α → κ}
    (h : ∀ k a, make k = some a → key a = k) {keys : List κ} :
    ((keys.filterMap make).map key).Sublist keys := by
  induction keys with
  | nil => exact List.Sublist.slnil
  | cons k keys ih =>
    cases hmake : make k with
    | none =>
      rw [List.filterMap_cons_none hmake]
      exact ih.cons k
    | some a =>
      rw [List.filterMap_cons_some hmake, List.map_cons, h k a hmake]
      exact ih.cons_cons k

lemma groupKeys_nodup (agree : W → List W → W) (rows : List (Fact W T)) :
    ((agreeingObservationStates agree rows).map Fact.groupKey).Nodup := by
  unfold agreeingObservationStates
  refine (nodup_eraseDups _).sublist (keys_filterMap_sublist fun key state hstate => ?_)
  split at hstate
  · cases hstate
  next first rest hgroup =>
    have hfirst : first ∈ rows.filter fun row => row.groupKey = key :=
      hgroup ▸ List.mem_cons_self
    obtain rfl := Option.some.inj hstate
    rw [groupKey_agreeingState]
    exact of_decide_eq_true (List.mem_filter.mp hfirst).2

omit [LinearOrder T] in
/-- The state of a group does not depend on the order of its rows. -/
lemma agreeingState_perm {first' : Fact W T} {rest' : List (Fact W T)}
    (hagree : ∀ w ws w' ws', (w :: ws).Perm (w' :: ws') → agree w ws = agree w' ws')
    (hkey : first.groupKey = first'.groupKey) (h : (first :: rest).Perm (first' :: rest')) :
    agreeingState agree first rest = agreeingState agree first' rest' := by
  have hcells := hagree _ _ _ _ (h.map Fact.cells)
  have hlength := h.length_eq
  simp only [Fact.groupKey, Prod.mk.injEq] at hkey
  cases rest with
  | nil =>
    obtain rfl : rest' = [] := by
      cases rest' with
      | nil => rfl
      | cons => simp at hlength
    obtain rfl : first = first' := by simpa using h
    rfl
  | cons second rest =>
    obtain ⟨second', rest', rfl⟩ : ∃ second' tail, rest' = second' :: tail := by
      cases rest' with
      | nil => simp at hlength
      | cons second' tail => exact ⟨second', tail, rfl⟩
    unfold agreeingState
    dsimp only
    rw [hcells, hkey.1, hkey.2.1, hkey.2.2.1, hkey.2.2.2]
    simp only [h.mem_iff]

/-- The states of rows in another order -/
lemma mem_agreeingObservationStates_perm
    (hagree : ∀ w ws w' ws', (w :: ws).Perm (w' :: ws') → agree w ws = agree w' ws')
    (h : rows.Perm rows') (hstate : state ∈ agreeingObservationStates agree rows) :
    state ∈ agreeingObservationStates agree rows' := by
  obtain ⟨first, rest, hgroup, heq⟩ := mem_agreeingObservationStates.mp hstate
  have hperm := h.filter fun row => row.groupKey = state.groupKey
  rw [hgroup] at hperm
  cases hgroup' : rows'.filter fun row => row.groupKey = state.groupKey with
  | nil =>
    rw [hgroup'] at hperm
    exact absurd hperm.eq_nil (List.cons_ne_nil _ _)
  | cons first' rest' =>
    rw [hgroup'] at hperm
    have hkey : ∀ {row : Fact W T} {l : List (Fact W T)} {tail : List (Fact W T)},
        l.filter (fun row => row.groupKey = state.groupKey) = row :: tail →
          row.groupKey = state.groupKey := fun {row l tail} hfilter => by
      have hmem : row ∈ l.filter fun row => row.groupKey = state.groupKey :=
        hfilter ▸ List.mem_cons_self
      exact of_decide_eq_true (List.mem_filter.mp hmem).2
    refine mem_agreeingObservationStates.mpr ⟨first', rest', hgroup', ?_⟩
    rw [heq]
    exact agreeingState_perm hagree ((hkey hgroup).trans (hkey hgroup').symm) hperm

/-- The states up to a session are those of the rows up to it. -/
lemma mem_filter_agreeingObservationStates (session : CalendarDate) :
    state ∈ (agreeingObservationStates agree rows).filter (·.stateEffectiveSession ≤ session) ↔
      state ∈ agreeingObservationStates agree
        (rows.filter (·.stateEffectiveSession ≤ session)) := by
  rw [List.mem_filter, mem_agreeingObservationStates, mem_agreeingObservationStates,
    decide_eq_true_eq]
  have hfilter : state.stateEffectiveSession ≤ session →
      (rows.filter (·.stateEffectiveSession ≤ session)).filter
        (fun row => row.groupKey = state.groupKey) =
      rows.filter fun row => row.groupKey = state.groupKey := by
    intro hle
    rw [List.filter_filter]
    refine List.filter_congr fun row _ => ?_
    by_cases hkey : row.groupKey = state.groupKey
    · have hsession : row.stateEffectiveSession = state.stateEffectiveSession := by
        simp only [Fact.groupKey, Prod.mk.injEq] at hkey
        exact hkey.2.2.2
      simp [hkey, hsession, hle]
    · simp [hkey]
  constructor
  · rintro ⟨⟨first, rest, hgroup, heq⟩, hle⟩
    exact ⟨first, rest, (hfilter hle).trans hgroup, heq⟩
  · rintro ⟨first, rest, hgroup, heq⟩
    have hle : state.stateEffectiveSession ≤ session := by
      have hmem : first ∈ (rows.filter (·.stateEffectiveSession ≤ session)).filter
          fun row => row.groupKey = state.groupKey := hgroup ▸ List.mem_cons_self
      obtain ⟨hmem, hkey⟩ := List.mem_filter.mp hmem
      simp only [Fact.groupKey, decide_eq_true_eq, Prod.mk.injEq] at hkey
      rw [← hkey.2.2.2]
      exact of_decide_eq_true (List.mem_filter.mp hmem).2
    exact ⟨⟨first, rest, (hfilter hle).symm.trans hgroup, heq⟩, hle⟩

/-! ### Reports -/

/-- The states of one report, one after the other -/
def reportStep (same : Fact W T → Fact W T → Bool) (previous : Option (Fact W T))
    (row : Fact W T) : Option (Fact W T) := some (markConflict same previous row)

lemma lookup_foldl_updateState (key : String ×ₗ WithBot String) :
    (facts.foldl (updateState same) states).lookup key =
      (facts.filter fun row => row.reportKey = key).foldl (reportStep same) (states.lookup key) := by
  induction facts generalizing states with
  | nil => rfl
  | cons row facts ih =>
    rw [List.foldl_cons, ih, updateState, OrderedMap.lookup_set]
    by_cases hkey : row.reportKey = key
    · rw [if_pos hkey.symm, List.filter_cons_of_pos (by simpa using hkey), List.foldl_cons, hkey,
        reportStep]
    · rw [if_neg (Ne.symm hkey), List.filter_cons_of_neg (by simpa using hkey)]

omit [LinearOrder T] in
lemma mem_keys_iff {key : String ×ₗ WithBot String} :
    key ∈ states.keys ↔ (states.lookup key).isSome := by
  rw [AList.lookup_isSome, AList.mem_keys]

omit [LinearOrder T] in
/-- The selected state follows from the states of the reports. -/
lemma selectedState_map {pickedStates : States W' T} (f : Fact W T → Fact W' T)
    (h : ∀ key, pickedStates.lookup key = (states.lookup key).map f) :
    selectedState pickedStates = (selectedState states).map f := by
  have hkeys : ∀ key, key ∈ pickedStates.keys ↔ key ∈ states.keys := fun key => by
    rw [mem_keys_iff, mem_keys_iff, h, Option.isSome_map]
  have hmax : pickedStates.keys.max? = states.keys.max? := by
    ext key
    simp only [List.max?_eq_some_iff, hkeys]
  unfold selectedState
  rw [hmax, Option.map_bind]
  exact Option.bind_congr fun key _ => h key

omit [LinearOrder T] in
lemma selectedState_congr (h : ∀ key, states.lookup key = states'.lookup key) :
    selectedState states = selectedState states' := by
  rw [selectedState_map id fun key => (h key).trans Option.map_id_apply.symm, Option.map_id_apply]

/-- Facts in order, each with a group of its own, give the rows of a report one order. -/
lemma filter_reportKey_eq (hsorted : facts.Pairwise fun a b => a.order ≤ b.order)
    (hsorted' : facts'.Pairwise fun a b => a.order ≤ b.order)
    (hnodup : (facts.map Fact.groupKey).Nodup) (hnodup' : (facts'.map Fact.groupKey).Nodup)
    (hmem : ∀ row, row ∈ facts ↔ row ∈ facts') (key : String ×ₗ WithBot String) :
    facts.filter (fun row => row.reportKey = key) =
      facts'.filter fun row => row.reportKey = key := by
  have hstrict : ∀ l : List (Fact W T), l.Pairwise (fun a b => a.order ≤ b.order) →
      (l.map Fact.groupKey).Nodup →
      (l.filter fun row => row.reportKey = key).Pairwise fun a b => a.order < b.order := by
    intro l hle hgroups
    refine ((hle.imp₂ (fun _ _ hle hne => And.intro hle hne)
      (List.pairwise_map.mp hgroups)).filter _).imp_of_mem ?_
    intro a b ha hb ⟨hle, hne⟩
    refine lt_of_le_of_ne hle fun heq => hne (groupKey_eq_of ?_ heq)
    exact (of_decide_eq_true (List.mem_filter.mp ha).2).trans
      (of_decide_eq_true (List.mem_filter.mp hb).2).symm
  refine eq_of_mem_iff (hstrict _ hsorted hnodup) (hstrict _ hsorted' hnodup') fun row => ?_
  rw [List.mem_filter, List.mem_filter, hmem]

/-- The selected state after facts in order follows from their members. -/
lemma selectedState_foldl_congr (hsorted : facts.Pairwise fun a b => a.order ≤ b.order)
    (hsorted' : facts'.Pairwise fun a b => a.order ≤ b.order)
    (hnodup : (facts.map Fact.groupKey).Nodup) (hnodup' : (facts'.map Fact.groupKey).Nodup)
    (hmem : ∀ row, row ∈ facts ↔ row ∈ facts') :
    selectedState (facts.foldl (updateState same) ∅) =
      selectedState (facts'.foldl (updateState same) ∅) := by
  refine selectedState_congr fun key => ?_
  rw [lookup_foldl_updateState, lookup_foldl_updateState,
    filter_reportKey_eq hsorted hsorted' hnodup hnodup' hmem]

/-! ### The selected state -/

/-- The state of a column that a reader knows at last, of the rows that it sees -/
def latestState (agree : W → List W → W) (rows : List (Fact W T)) : Option (Fact W T) :=
  selectedState ((sortBy Fact.order (agreeingObservationStates agree rows)).foldl
    (updateState fun _ _ => false) ∅)

lemma sorted_groupKeys_nodup (agree : W → List W → W) (rows : List (Fact W T)) :
    ((sortBy Fact.order (agreeingObservationStates agree rows)).map Fact.groupKey).Nodup :=
  ((sortBy_perm _ _).map _).nodup_iff.mpr (groupKeys_nodup agree rows)

/-- The order of the rows does not matter. -/
theorem latestState_perm
    (hagree : ∀ w ws w' ws', (w :: ws).Perm (w' :: ws') → agree w ws = agree w' ws')
    (h : rows.Perm rows') : latestState agree rows = latestState agree rows' := by
  refine selectedState_foldl_congr (sortBy_pairwise _ _) (sortBy_pairwise _ _)
    (sorted_groupKeys_nodup agree rows) (sorted_groupKeys_nodup agree rows') fun row => ?_
  rw [mem_sortBy, mem_sortBy]
  exact ⟨mem_agreeingObservationStates_perm hagree h,
    mem_agreeingObservationStates_perm hagree h.symm⟩

/-- A row never replaces an equal one. -/
lemma foldl_reportStep (hsame : ∀ a b, same a b → a.groupKey = b.groupKey)
    (hnodup : (facts.map Fact.groupKey).Nodup) {previous : Option (Fact W T)}
    (hprevious : ∀ row ∈ previous, ∀ fact ∈ facts, row.groupKey ≠ fact.groupKey) :
    facts.foldl (reportStep same) previous =
      facts.foldl (reportStep fun _ _ => false) previous := by
  induction facts generalizing previous with
  | nil => rfl
  | cons fact facts ih =>
    obtain ⟨hfirst, hnodup⟩ := List.nodup_cons.mp hnodup
    have hmark : markConflict same previous fact = markConflict (fun _ _ => false) previous fact := by
      cases previous with
      | none => rfl
      | some row =>
        have hne := hprevious row rfl fact List.mem_cons_self
        have hdiffers : same row fact = false := by
          by_contra hequal
          exact hne (hsame _ _ (by simpa using hequal))
        rw [markConflict, markConflict, hdiffers]
    have hkey : ∀ previous : Option (Fact W T),
        (markConflict (fun _ _ => false) previous fact).groupKey = fact.groupKey := by
      intro previous
      unfold markConflict
      split
      · rfl
      · split <;> rfl
    rw [List.foldl_cons, List.foldl_cons, reportStep, reportStep, hmark]
    refine ih hnodup fun row hrow other hother heq => hfirst ?_
    obtain rfl := Option.some.inj hrow
    rw [← hkey previous, heq]
    exact List.mem_map_of_mem hother

lemma foldl_updateState_same (hsame : ∀ a b, same a b → a.groupKey = b.groupKey)
    (hnodup : (facts.map Fact.groupKey).Nodup) :
    selectedState (facts.foldl (updateState same) ∅) =
      selectedState (facts.foldl (updateState fun _ _ => false) ∅) := by
  refine selectedState_congr fun key => ?_
  rw [lookup_foldl_updateState, lookup_foldl_updateState]
  exact foldl_reportStep hsame (hnodup.sublist (List.filter_sublist.map _)) nofun

/-! ### One column -/

/-- A fact with less of its columns -/
def Fact.pick (f : W → W') (fact : Fact W T) : Fact W' T := { fact with cells := f fact.cells }

lemma agreeingObservationStates_pick {f : W → W'}
    (hagree : ∀ w ws, f (agree w ws) = agree' (f w) (ws.map f)) :
    (agreeingObservationStates agree rows).map (Fact.pick f) =
      agreeingObservationStates agree' (rows.map (Fact.pick f)) := by
  have hkeys : (rows.map (Fact.pick f)).map Fact.groupKey = rows.map Fact.groupKey := by
    rw [List.map_map]
    rfl
  have hstate : ∀ (first : Fact W T) rest, (agreeingState agree first rest).pick f =
      agreeingState agree' (first.pick f) (rest.map (Fact.pick f)) := by
    intro first rest
    cases rest with
    | nil => rfl
    | cons second rest =>
      simp [agreeingState, Fact.pick, hagree, Function.comp_def]
  unfold agreeingObservationStates
  rw [hkeys, List.map_filterMap]
  refine List.filterMap_congr fun key _ => ?_
  have hgroup : (rows.map (Fact.pick f)).filter (fun row => row.groupKey = key) =
      (rows.filter fun row => row.groupKey = key).map (Fact.pick f) := by
    rw [List.filter_map]
    rfl
  rw [hgroup]
  cases rows.filter fun row => row.groupKey = key with
  | nil => rfl
  | cons first rest => exact congrArg some (hstate first rest)

lemma foldl_reportStep_pick (f : W → W') (facts : List (Fact W T)) (previous : Option (Fact W T)) :
    (facts.map (Fact.pick f)).foldl (reportStep fun _ _ => false) (previous.map (Fact.pick f)) =
      (facts.foldl (reportStep fun _ _ => false) previous).map (Fact.pick f) := by
  induction facts generalizing previous with
  | nil => rfl
  | cons fact facts ih =>
    have hmark : markConflict (fun _ _ => false) (previous.map (Fact.pick f)) (fact.pick f) =
        (markConflict (fun _ _ => false) previous fact).pick f := by
      cases previous with
      | none => rfl
      | some row =>
        by_cases hevent : row.observationEventAt = fact.observationEventAt <;>
          simp [markConflict, Fact.pick, hevent]
    rw [List.map_cons, List.foldl_cons, List.foldl_cons, reportStep, hmark]
    exact ih (reportStep (fun _ _ => false) previous fact)

/-- Whatever else is read, the latest state of a column is that of the column alone. -/
theorem latestState_pick {f : W → W'} (hagree : ∀ w ws, f (agree w ws) = agree' (f w) (ws.map f))
    (rows : List (Fact W T)) :
    latestState agree' (rows.map (Fact.pick f)) = (latestState agree rows).map (Fact.pick f) := by
  unfold latestState
  rw [← agreeingObservationStates_pick hagree, ← map_sortBy (Fact.pick f) (fun _ => rfl)]
  refine selectedState_map _ fun key => ?_
  rw [lookup_foldl_updateState, lookup_foldl_updateState, List.filter_map]
  exact foldl_reportStep_pick f _ none

end States

end ThesisTrace.IndicatorSeries
