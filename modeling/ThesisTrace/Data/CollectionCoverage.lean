import ThesisTrace.Data.IndicatorCollection

/-!
# Coverage of a collection

The ranges on the stack and the leaves that were yielded tile the report range after every turn of
the loop, and every turn makes the ranges that are left smaller.
-/

namespace ThesisTrace.IndicatorCollection
open Transaction Tiling

/-! ### Turns of the loop -/

/-- The days of a range, as numbers -/
def Range.days (range : Range) : ℕ × ℕ := (range.1.ordinal, range.2.ordinal)

lemma midpoint_spec {lower upper : CalendarDate} (h : lower < upper) :
    ∃ middle next, midpoint lower upper = .ok (middle, next) ∧ lower ≤ middle ∧ middle < upper ∧
      next.ordinal = middle.ordinal + 1 ∧ next ≤ upper := by
  have hlt := CalendarDate.ordinal_lt_iff.mpr h
  obtain ⟨middle, hmiddle⟩ := @CalendarDate.exists_addDays
    ((upper.ordinal - lower.ordinal) / 2) lower upper (by omega)
  have hmiddleDay := CalendarDate.ordinal_addDays hmiddle
  obtain ⟨next, hnext⟩ := @CalendarDate.exists_addDays 1 middle upper (by omega)
  have hnextDay := CalendarDate.ordinal_addDays hnext
  refine ⟨middle, next, ?_, ?_, ?_, hnextDay, ?_⟩
  · simp only [midpoint, bind_ok_iff, found_ok_iff]
    exact ⟨middle, hmiddle, next, hnext, rfl⟩
  · exact CalendarDate.ordinal_le_iff.mp (by omega)
  · exact CalendarDate.ordinal_lt_iff.mp (by omega)
  · exact CalendarDate.ordinal_le_iff.mp (by omega)

section Source

variable {S : Type} {query : Query S} {tsCode : String} {state state' : S}
  {lower upper : CalendarDate} {pending pending' : List Range}
  {shard : FinancialIndicatorSourceShard}

/-- What a turn does where it does not fail -/
structure Visited (query : Query S) (tsCode : String) (state state' : S)
    (lower upper : CalendarDate) (shard : FinancialIndicatorSourceShard) : Prop where
  answered : query state (requestOf tsCode lower upper) = (state', .ok shard.response)
  checked : checkResponse tsCode lower upper shard.response = .ok ()
  lower_eq : shard.lower = lower
  upper_eq : shard.upper = upper
  complete_eq : shard.complete = decide (shard.response.items.length < rowLimit)

lemma visit_cases (h : visit query tsCode state lower upper pending = (state', .ok (shard, pending'))) :
    Visited query tsCode state state' lower upper shard ∧
      (shard.complete ∧ pending' = pending ∨
        shard.complete = false ∧ lower ≠ upper ∧ ∃ middle next,
          midpoint lower upper = .ok (middle, next) ∧
            pending' = (lower, middle) :: (next, upper) :: pending) := by
  unfold visit at h
  split at h
  · cases h
  next state'' raw hraw =>
    obtain ⟨rfl, hresult⟩ := Prod.mk.inj h
    obtain ⟨_, hcheck, h⟩ := bind_ok_iff.mp hresult
    by_cases hlimit : raw.items.length < rowLimit
    · rw [if_pos (by simpa using hlimit), pure_ok_iff] at h
      obtain ⟨rfl, rfl⟩ := Prod.mk.inj h
      exact ⟨⟨hraw, hcheck, rfl, rfl, rfl⟩, .inl ⟨by simpa using hlimit, rfl⟩⟩
    · rw [if_neg (by simpa using hlimit)] at h
      obtain ⟨_, hne, h⟩ := bind_ok_iff.mp h
      obtain ⟨⟨middle, next⟩, hmid, h⟩ := bind_ok_iff.mp h
      obtain ⟨rfl, rfl⟩ := Prod.mk.inj (pure_ok_iff.mp h)
      exact ⟨⟨hraw, hcheck, rfl, rfl, rfl⟩,
        .inr ⟨by simpa using hlimit, require_ok_iff.mp hne, middle, next, hmid, rfl⟩⟩

/-- What every turn keeps, the whole loop keeps. -/
lemma collectLoop_preserves
    {P : S → List Range → List FinancialIndicatorSourceShard → Prop}
    (hvisit : ∀ state lower upper pending shards state' shard pending',
      P state ((lower, upper) :: pending) shards →
      visit query tsCode state lower upper pending = (state', .ok (shard, pending')) →
      P state' pending' (shards ++ [shard]))
    {fuel : ℕ} {shards shards' : List FinancialIndicatorSourceShard}
    (h0 : P state pending shards)
    (h : collectLoop query tsCode fuel state pending shards = (state', some (.ok shards'))) :
    P state' [] shards' := by
  induction fuel generalizing state pending shards with
  | zero =>
    cases pending with
    | nil =>
      cases h
      exact h0
    | cons range pending => cases h
  | succ fuel ih =>
    cases pending with
    | nil =>
      cases h
      exact h0
    | cons range pending =>
      obtain ⟨lower, upper⟩ := range
      rw [collectLoop] at h
      split at h
      · cases h
      next state'' shard pending' hshard =>
        exact ih (hvisit _ _ _ _ _ _ _ _ h0 hshard) h

/-! ### Termination -/

def InOrder (pending : List Range) : Prop := ∀ range ∈ pending, range.1 ≤ range.2

/-- A bound for the turns that are left: the requests of a range form a binary tree over its
days. -/
def work (pending : List Range) : ℕ :=
  (pending.map fun range => 2 * (range.2.ordinal - range.1.ordinal) + 1).sum

lemma visit_shrinks (horder : InOrder ((lower, upper) :: pending))
    (h : visit query tsCode state lower upper pending = (state', .ok (shard, pending'))) :
    InOrder pending' ∧ work pending' < work ((lower, upper) :: pending) := by
  obtain ⟨hle, horder⟩ := List.forall_mem_cons.mp horder
  change lower ≤ upper at hle
  obtain ⟨-, ⟨-, rfl⟩ | ⟨-, hne, middle, next, hmid, rfl⟩⟩ := visit_cases h
  · refine ⟨horder, ?_⟩
    simp only [work, List.map_cons, List.sum_cons]
    omega
  · obtain ⟨middle', next', hmid', hlow, hlt, hnext, hhigh⟩ := midpoint_spec (lt_of_le_of_ne hle hne)
    cases hmid.symm.trans hmid'
    refine ⟨?_, ?_⟩
    · exact List.forall_mem_cons.mpr ⟨hlow, List.forall_mem_cons.mpr ⟨hhigh, horder⟩⟩
    · have hlow := CalendarDate.ordinal_le_iff.mpr hlow
      have hhigh := CalendarDate.ordinal_le_iff.mpr hhigh
      simp only [work, List.map_cons, List.sum_cons, hnext]
      omega

variable (query tsCode state) in
/-- The loop ends, and more fuel gives the same result. -/
lemma collectLoop_terminates (shards : List FinancialIndicatorSourceShard)
    (horder : InOrder pending) :
    ∃ final result, ∀ fuel, work pending ≤ fuel →
      collectLoop query tsCode fuel state pending shards = (final, some result) := by
  induction hwork : work pending using Nat.strong_induction_on generalizing state pending shards with
  | _ n ih =>
    cases pending with
    | nil => exact ⟨state, .ok shards, fun fuel _ => by cases fuel <;> rfl⟩
    | cons range pending =>
      obtain ⟨lower, upper⟩ := range
      have hpos : 0 < n := by
        simp only [work, List.map_cons, List.sum_cons] at hwork
        omega
      cases hvisit : visit query tsCode state lower upper pending with
      | mk state' outcome =>
        cases outcome with
        | error error =>
          refine ⟨state', .error error, fun fuel hfuel => ?_⟩
          obtain ⟨fuel, rfl⟩ := Nat.exists_eq_add_one_of_ne_zero (n := fuel) (by omega)
          rw [collectLoop, hvisit]
        | ok next =>
          obtain ⟨shard, pending'⟩ := next
          obtain ⟨horder', hless⟩ := visit_shrinks horder hvisit
          obtain ⟨final, result, hresult⟩ :=
            ih (work pending') (by omega) state' (shards ++ [shard]) horder' rfl
          refine ⟨final, result, fun fuel hfuel => ?_⟩
          obtain ⟨fuel, rfl⟩ := Nat.exists_eq_add_one_of_ne_zero (n := fuel) (by omega)
          rw [collectLoop, hvisit]
          exact hresult fuel (by omega)

/-! ### Leaves -/

/-- The shards that contribute records -/
def leaves (shards : List FinancialIndicatorSourceShard) : List FinancialIndicatorSourceShard :=
  shards.filter (·.complete)

def FinancialIndicatorSourceShard.range (shard : FinancialIndicatorSourceShard) : Range :=
  (shard.lower, shard.upper)

lemma leaves_append_singleton (shards : List FinancialIndicatorSourceShard)
    (shard : FinancialIndicatorSourceShard) :
    leaves (shards ++ [shard]) = leaves shards ++ if shard.complete then [shard] else [] := by
  rw [leaves, List.filter_append, List.filter_singleton, Bool.cond_eq_ite]
  rfl

/-- The ranges that are visited come in the order of their first days, and the wider first. -/
def Precedes (visited range : Range) : Prop :=
  visited.1 < range.1 ∨ visited.1 = range.1 ∧ range.2 < visited.2

/-- The leaves and the ranges that are left tile the report range, and no range comes twice. -/
structure Covers (start stop : CalendarDate) (pending : List Range)
    (shards : List FinancialIndicatorSourceShard) : Prop where
  tiles : Tiles start.ordinal (stop.ordinal + 1)
    ((leaves shards).map (·.range.days) ++ pending.map Range.days)
  within : ∀ shard ∈ shards, start ≤ shard.lower ∧ shard.lower ≤ shard.upper ∧ shard.upper ≤ stop
  fresh : ∀ shard ∈ shards, ∀ range ∈ pending, Precedes shard.range range

variable {start stop : CalendarDate} {shards : List FinancialIndicatorSourceShard}

lemma Covers.initial (h : start ≤ stop) : Covers start stop [(start, stop)] [] :=
  ⟨⟨rfl, CalendarDate.ordinal_le_iff.mpr h, rfl⟩, nofun, nofun⟩

lemma Covers.bounds (h : Covers start stop pending shards) :
    ∀ range ∈ pending, start ≤ range.1 ∧ range.1 ≤ range.2 ∧ range.2 ≤ stop := by
  intro range hrange
  obtain ⟨hlow, hle, hhigh⟩ := h.tiles.bounds range.days
    (List.mem_append_right _ (List.mem_map_of_mem hrange))
  exact ⟨CalendarDate.ordinal_le_iff.mp hlow, CalendarDate.ordinal_le_iff.mp hle,
    CalendarDate.ordinal_le_iff.mp (Nat.le_of_lt_succ hhigh)⟩

lemma Covers.later (h : Covers start stop ((lower, upper) :: pending) shards) :
    ∀ range ∈ pending, upper < range.1 := by
  intro range hrange
  have hpairs := (List.pairwise_append.mp h.tiles.pairwise).2.1
  rw [List.map_cons, List.pairwise_cons] at hpairs
  exact CalendarDate.ordinal_lt_iff.mp (hpairs.1 range.days (List.mem_map_of_mem hrange))

lemma Covers.visit (h : Covers start stop ((lower, upper) :: pending) shards)
    (hvisit : visit query tsCode state lower upper pending = (state', .ok (shard, pending'))) :
    Covers start stop pending' (shards ++ [shard]) := by
  obtain ⟨hvisited, hcases⟩ := visit_cases hvisit
  obtain ⟨hlow, hle, hhigh⟩ := h.bounds _ List.mem_cons_self
  change lower ≤ upper at hle
  have hrange : shard.range = (lower, upper) := Prod.ext hvisited.lower_eq hvisited.upper_eq
  have hwithin : ∀ s ∈ shards ++ [shard], start ≤ s.lower ∧ s.lower ≤ s.upper ∧ s.upper ≤ stop := by
    refine List.forall_mem_append.mpr ⟨h.within, List.forall_mem_singleton.mpr ?_⟩
    rw [hvisited.lower_eq, hvisited.upper_eq]
    exact ⟨hlow, hle, hhigh⟩
  have hafter : ∀ range ∈ pending, Precedes (lower, upper) range := fun range hmem =>
    .inl (hle.trans_lt (h.later range hmem))
  obtain ⟨hcomplete, rfl⟩ | ⟨hcomplete, hne, middle, next, hmid, rfl⟩ := hcases
  · refine ⟨?_, hwithin, List.forall_mem_append.mpr ⟨fun s hs range hmem =>
      h.fresh s hs range (List.mem_cons_of_mem _ hmem), List.forall_mem_singleton.mpr ?_⟩⟩
    · rw [leaves_append_singleton, if_pos hcomplete, List.map_append, List.append_assoc,
        List.map_singleton, hrange]
      exact h.tiles
    · rw [hrange]
      exact hafter
  · obtain ⟨middle', next', hmid', hlow', hlt, hnext, hhigh'⟩ :=
      midpoint_spec (lt_of_le_of_ne hle hne)
    cases hmid.symm.trans hmid'
    have hstart : lower < next := by
      rw [← CalendarDate.ordinal_lt_iff, hnext]
      exact Nat.lt_succ_of_le (CalendarDate.ordinal_le_iff.mpr hlow')
    refine ⟨?_, hwithin, List.forall_mem_append.mpr ⟨fun s hs => ?_, List.forall_mem_singleton.mpr ?_⟩⟩
    · rw [leaves_append_singleton, hcomplete, if_neg Bool.false_ne_true, List.append_nil]
      obtain ⟨day, hleaves, hday, -, hrest⟩ := tiles_append_iff.mp h.tiles
      exact hleaves.append ⟨hday, CalendarDate.ordinal_le_iff.mpr hlow', hnext,
        CalendarDate.ordinal_le_iff.mpr hhigh', hrest⟩
    · have hhead := h.fresh s hs _ List.mem_cons_self
      have hrest : ∀ range ∈ pending, Precedes s.range range := fun range hmem =>
        h.fresh s hs range (List.mem_cons_of_mem _ hmem)
      refine List.forall_mem_cons.mpr ⟨?_, List.forall_mem_cons.mpr ⟨?_, hrest⟩⟩
      · exact hhead.imp_right fun ⟨hsame, hwider⟩ => ⟨hsame, hlt.trans hwider⟩
      · rcases hhead with hfirst | ⟨hsame, -⟩
        · exact .inl (hfirst.trans hstart)
        · exact .inl (hsame.trans_lt hstart)
    · rw [hrange]
      exact List.forall_mem_cons.mpr ⟨.inr ⟨rfl, hlt⟩,
        List.forall_mem_cons.mpr ⟨.inl hstart, hafter⟩⟩

lemma collectReportRange_covers {fuel : ℕ}
    (h : collectReportRange query tsCode fuel state start stop = (state', some (.ok shards))) :
    Covers start stop [] shards := by
  unfold collectReportRange at h
  split at h
  next hrange =>
    exact collectLoop_preserves (P := fun _ pending shards => Covers start stop pending shards)
      (fun _ _ _ _ _ _ _ _ hcovers hvisit => hcovers.visit hvisit) (Covers.initial hrange.1) h
  · cases h

/-- Every day of the report range lies in one leaf. -/
lemma Covers.countP_leaves (h : Covers start stop [] shards) (date : CalendarDate) :
    (leaves shards).countP (fun shard => shard.lower ≤ date ∧ date ≤ shard.upper) =
      if start ≤ date ∧ date ≤ stop then 1 else 0 := by
  have htiles := h.tiles
  rw [List.map_nil, List.append_nil] at htiles
  have hcount := htiles.countP_eq date.ordinal
  rw [List.countP_map] at hcount
  simpa [Function.comp_def, Range.days, FinancialIndicatorSourceShard.range, Nat.lt_succ_iff,
    CalendarDate.ordinal_le_iff] using hcount

/-- The leaves are in the order of their days. -/
lemma Covers.pairwise_leaves (h : Covers start stop [] shards) :
    (leaves shards).Pairwise fun a b => a.upper < b.lower := by
  have htiles := h.tiles
  rw [List.map_nil, List.append_nil] at htiles
  exact (List.pairwise_map.mp htiles.pairwise).imp CalendarDate.ordinal_lt_iff.mp

end Source

end ThesisTrace.IndicatorCollection
