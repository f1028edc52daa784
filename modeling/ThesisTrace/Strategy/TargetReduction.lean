import ThesisTrace.Strategy.OneDirection

/-!
# Limits and caps only reduce targets

Target values pass through the share limits and then through the stock exposure cap. Neither
step raises a value, and a limited holding is not bought back: only the rounding of its limit
value can exceed what is held, by less than any real share costs.
-/

namespace ThesisTrace.Strategy
open Transaction DecimalContext

variable {F E : Type} {R : Rounding} {data : MarketData} {costs : Costs}

abbrev TargetValues := OrderedMap InstrumentId ℚ

/-- A target value; instruments outside the dictionary have a desired value of zero. -/
def valueAt (values : TargetValues) (id : InstrumentId) : ℚ :=
  (values.lookup id).getD 0

/-- The holdings of an opened session, with a positive number of shares and no negative value. -/
structure OpenedSession.Valued (opened : OpenedSession) : Prop where
  shares : ∀ id position, opened.account.positions.lookup id = some position →
    0 < position.executionShares
  units : ∀ id position, opened.account.positions.lookup id = some position →
    0 ≤ position.adjustedUnits
  marks : ∀ id position, opened.account.positions.lookup id = some position → 0 ≤ opened.marks id

/-! ### Share limits -/

/-- The value that a share limit leaves of a holding. -/
def limitedValue (R : Rounding) (marks : Marks) (id : InstrumentId) (position : Position)
    (maximum : ℕ) : ℚ :=
  R.money (R.ambient (R.ambient (R.ambient (position.adjustedUnits * marks id) * maximum)
    / position.executionShares))

lemma limitValue_cases {positions : Positions} {marks : Marks} {values next : TargetValues}
    {id : InstrumentId} {maximum : ℕ}
    (h : limitValue R positions marks values id maximum = .ok next) :
    (positions.lookup id = none ∧ next = values) ∨ ∃ position,
      positions.lookup id = some position ∧ next = OrderedMap.set values id
        (min (valueAt values id) (limitedValue R marks id position maximum)) := by
  unfold limitValue at h
  split at h
  · next hnone => exact .inl ⟨hnone, (Except.ok.inj h).symm⟩
  · next position hposition =>
    split_ifs at h
    exact .inr ⟨position, hposition, (Except.ok.inj h).symm⟩

lemma limitValue_le {positions : Positions} {marks : Marks} {values next : TargetValues}
    {id : InstrumentId} {maximum : ℕ}
    (h : limitValue R positions marks values id maximum = .ok next) (other : InstrumentId) :
    valueAt next other ≤ valueAt values other := by
  rcases limitValue_cases h with ⟨-, rfl⟩ | ⟨position, -, rfl⟩
  · exact le_rfl
  · unfold valueAt
    rw [OrderedMap.lookup_set]
    split_ifs with heq
    · rw [heq]
      exact min_le_left _ _
    · exact le_rfl

/-- The share limits raise no target value, and hold a limited one to its limit value. -/
theorem limitValues_le {target : PendingTarget} {positions : Positions} {marks : Marks}
    {values limited : TargetValues}
    (h : limitValues R target positions marks values = .ok limited) :
    (∀ id, valueAt limited id ≤ valueAt values id)
      ∧ ∀ e ∈ target.positionLimits.entries, ∀ position,
        positions.lookup e.1 = some position →
          valueAt limited e.1 ≤ limitedValue R marks e.1 position e.2 := by
  unfold limitValues at h
  generalize target.positionLimits.entries = entries at h ⊢
  induction entries generalizing values with
  | nil =>
    rw [List.foldlM_nil, pure_ok_iff] at h
    subst h
    exact ⟨fun _ => le_rfl, fun _ h => absurd h List.not_mem_nil⟩
  | cons e entries ih =>
    rw [List.foldlM_cons, bind_ok_iff] at h
    obtain ⟨middle, hstep, h⟩ := h
    obtain ⟨hle, hlimits⟩ := ih h
    refine ⟨fun id => (hle id).trans (limitValue_le hstep id), fun e' he' position hposition => ?_⟩
    rcases List.mem_cons.mp he' with rfl | hrest
    · refine (hle e'.1).trans ?_
      rcases limitValue_cases hstep with ⟨hnone, -⟩ | ⟨position', hposition', rfl⟩
      · rw [hnone] at hposition
        cases hposition
      · rw [hposition'] at hposition
        cases hposition
        unfold valueAt
        rw [OrderedMap.lookup_set, if_pos rfl]
        exact min_le_right _ _
    · exact hlimits e' hrest position hposition

/-! ### The exposure cap -/

/-- Amounts of money: not negative, and unchanged by the accounting context. -/
structure Settled (R : Rounding) (value : ℚ) : Prop where
  nonneg : 0 ≤ value
  rounded : R.accounting value = value

def AllSettled (R : Rounding) (values : TargetValues) : Prop :=
  ∀ id value, values.lookup id = some value → Settled R value

lemma settled_zero : Settled R 0 :=
  ⟨le_rfl, R.accounting_zero⟩

lemma settled_ambient {x : ℚ} (h : 0 ≤ x) : Settled R (R.money (R.ambient x)) := by
  rw [Rounding.money_ambient]
  exact ⟨R.ambient_nonneg h, R.accounting_ambient x⟩

lemma Settled.max {x y : ℚ} (hx : Settled R x) (hy : Settled R y) : Settled R (max x y) := by
  rcases max_choice x y with h | h <;> rw [h] <;> assumption

lemma Settled.min {x y : ℚ} (hx : Settled R x) (hy : Settled R y) : Settled R (min x y) := by
  rcases min_choice x y with h | h <;> rw [h] <;> assumption

lemma AllSettled.valueAt {values : TargetValues} (h : AllSettled R values) (id : InstrumentId) :
    Settled R (valueAt values id) := by
  unfold Strategy.valueAt
  cases hlookup : values.lookup id with
  | none => exact settled_zero
  | some value => exact h id value hlookup

lemma AllSettled.set {values : TargetValues} {id : InstrumentId} {value : ℚ}
    (h : AllSettled R values) (hvalue : Settled R value) :
    AllSettled R (OrderedMap.set values id value) := by
  intro other found hfound
  rw [OrderedMap.lookup_set] at hfound
  split_ifs at hfound
  · cases hfound
    exact hvalue
  · exact h other found hfound

lemma AllSettled.updateAll {values : TargetValues}
    {rows : List (Sigma fun _ : InstrumentId => ℚ)} (h : AllSettled R values)
    (hrows : ∀ row ∈ rows, Settled R row.2) : AllSettled R (updateAll values rows) := by
  unfold Strategy.updateAll
  induction rows generalizing values with
  | nil => exact h
  | cons row rows ih =>
    exact ih (h.set (hrows row List.mem_cons_self))
      fun row' hrow' => hrows row' (List.mem_cons_of_mem row hrow')

lemma allSettled_empty : AllSettled R ∅ := fun _ _ h => nomatch h

/-- What is left of the target capital beside the retained holdings. -/
def availableCapital (R : Rounding) (target : PendingTarget) (positions : Positions)
    (marks : Marks) (capital : ℚ) : ℚ :=
  max 0 (R.ambient (capital
    - R.ambientSum ((retainedValues R target positions marks).map Sigma.snd)))

/-- The ratio by which a reduction scales the other holdings. Their value is a difference of two
sums and can be negative by their roundings. -/
def reductionRatio (R : Rounding) (target : PendingTarget) (positions : Positions)
    (marks : Marks) (capital : ℚ) : ℚ :=
  let actual := R.ambient (sumPositionValues R positions marks
    - R.ambientSum ((retainedValues R target positions marks).map Sigma.snd))
  if actual = 0 then 0
  else min 1 (R.ambient (availableCapital R target positions marks capital / actual))

lemma reducedValues_settled {target : PendingTarget} {positions : Positions} {marks : Marks}
    {ratio : ℚ} (hvalues : ∀ id position, positions.lookup id = some position →
      0 ≤ position.adjustedUnits * marks id) (hratio : 0 ≤ ratio) :
    AllSettled R (reducedValues R target positions marks ratio) := by
  intro id value hvalue
  unfold reducedValues at hvalue
  rw [OrderedMap.lookup_filterMap, Option.bind_eq_some_iff] at hvalue
  obtain ⟨position, hposition, hvalue⟩ := hvalue
  split_ifs at hvalue
  rw [← Option.some.inj hvalue]
  exact settled_ambient (mul_nonneg (R.ambient_nonneg (hvalues id position hposition)) hratio)

lemma candidateValues_settled {target : PendingTarget} {available : ℚ} (h : 0 ≤ available) :
    ∀ row ∈ candidateValues R target available, Settled R row.2 := by
  intro row hrow
  unfold candidateValues at hrow
  split at hrow
  · cases hrow
  · next allocation _ =>
    obtain ⟨id, hid, rfl⟩ := List.mem_map.mp hrow
    have hnum : (0 : ℚ) ≤ (allocation.relativeWeights id).num := by
      exact_mod_cast (Rat.num_pos.mpr (allocation.relativeWeights_pos id hid)).le
    exact settled_ambient (div_nonneg (R.ambient_nonneg (mul_nonneg h hnum)) (Nat.cast_nonneg _))

lemma raiseToActual_settled {positions : Positions} {marks : Marks} {values : TargetValues}
    (hheld : ∀ id position, positions.lookup id = some position →
      Settled R (holdingValue R marks id position)) (h : AllSettled R values) :
    AllSettled R (raiseToActual R positions marks values) := by
  unfold raiseToActual
  have hentries : ∀ e ∈ positions.entries, Settled R (holdingValue R marks e.1 e.2) :=
    fun e he => hheld e.1 e.2 (OrderedMap.lookup_eq_some_iff.mpr he)
  generalize positions.entries = entries at hentries
  induction entries generalizing values with
  | nil => exact h
  | cons e entries ih =>
    have hactual := hentries e List.mem_cons_self
    refine ih (h.set (Settled.max ?_ hactual))
      fun e' he' => hentries e' (List.mem_cons_of_mem e he')
    cases hlookup : values.lookup e.1 with
    | none => exact hactual
    | some value => exact h e.1 value hlookup

/-- Target values are amounts of money before the limits and the cap. -/
lemma uncappedValues_settled {target : PendingTarget} {positions : Positions} {marks : Marks}
    {capital : ℚ} (hvalues : ∀ id position, positions.lookup id = some position →
      0 ≤ position.adjustedUnits * marks id)
    (hratio : target.mode = .reduce → 0 ≤ reductionRatio R target positions marks capital) :
    AllSettled R (uncappedValues R target positions marks capital) := by
  have hheld : ∀ id position, positions.lookup id = some position →
      Settled R (holdingValue R marks id position) :=
    fun id position hposition => settled_ambient (hvalues id position hposition)
  have hretained : ∀ row ∈ retainedValues R target positions marks, Settled R row.2 := by
    intro row hrow
    obtain ⟨id, -, hid⟩ := List.mem_filterMap.mp hrow
    obtain ⟨position, hposition, rfl⟩ := Option.map_eq_some_iff.mp hid
    exact hheld id position hposition
  have hfinish : ∀ base, AllSettled R base → AllSettled R
      (if target.mode = .localLimits ∨ target.mode = .increase then
        raiseToActual R positions marks
          (updateAll base (retainedValues R target positions marks))
      else updateAll base (retainedValues R target positions marks)) := by
    intro base hbase
    split_ifs
    · exact raiseToActual_settled hheld (hbase.updateAll hretained)
    · exact hbase.updateAll hretained
  unfold uncappedValues
  refine hfinish _ ?_
  by_cases hreduce : target.mode = .reduce
  · rw [if_pos hreduce]
    exact reducedValues_settled hvalues (hratio hreduce)
  · rw [if_neg hreduce]
    exact AllSettled.updateAll allSettled_empty (candidateValues_settled (le_max_left _ _))

lemma limitValues_settled {target : PendingTarget} {positions : Positions} {marks : Marks}
    {values limited : TargetValues}
    (hvalues : ∀ id position, positions.lookup id = some position →
      0 ≤ position.adjustedUnits * marks id ∧ 0 < position.executionShares)
    (h : limitValues R target positions marks values = .ok limited) (hsettled : AllSettled R values) :
    AllSettled R limited := by
  unfold limitValues at h
  refine foldlM_preserves (I := AllSettled R) (fun values e next hall hstep => ?_) hsettled h
  rcases limitValue_cases hstep with ⟨-, rfl⟩ | ⟨position, hposition, rfl⟩
  · exact hall
  · obtain ⟨hvalue, hshares⟩ := hvalues e.1 position hposition
    refine hall.set ((hall.valueAt e.1).min (settled_ambient (div_nonneg ?_ ?_)))
    · exact R.ambient_nonneg (mul_nonneg (R.ambient_nonneg hvalue) (Nat.cast_nonneg _))
    · exact_mod_cast hshares.le

lemma ambientSum_nonneg {values : List ℚ} (h : ∀ x ∈ values, 0 ≤ x) :
    0 ≤ R.ambientSum values :=
  ambientSum_foldl_nonneg h le_rfl

/-- Where the accounting context keeps one, scaling to the exposure cap raises no value. -/
theorem capValues_le {target : PendingTarget} {preNetNav : ℚ}
    {monetary limited monetary' values : TargetValues} (hone : R.accounting 1 = 1)
    (hsettled : AllSettled R limited)
    (h : capValues R target preNetNav monetary limited = .ok (monetary', values))
    (id : InstrumentId) : valueAt values id ≤ valueAt limited id := by
  unfold capValues at h
  split at h
  · cases h
    exact le_rfl
  · next cap _ =>
    dsimp only at h
    split at h
    · cases h
      exact le_rfl
    · next hexceeds =>
      simp only [bind_ok_iff, pure_ok_iff, Prod.mk.injEq] at h
      obtain ⟨ratio, hratio, -, rfl⟩ := h
      obtain ⟨hne, rfl⟩ := Rounding.divide_ok_iff.mp hratio
      have hnonneg : 0 ≤ proposedCapital R limited := by
        refine ambientSum_nonneg fun x hx => ?_
        obtain ⟨e, he, rfl⟩ := List.mem_map.mp hx
        exact (hsettled e.1 e.2 (OrderedMap.lookup_eq_some_iff.mpr he)).nonneg
      have hproposed : 0 < proposedCapital R limited := lt_of_le_of_ne hnonneg (Ne.symm hne)
      have hle : R.accounting (R.money (R.ambient (preNetNav * cap)) / proposedCapital R limited)
          ≤ 1 := by
        have hround := R.accounting_mono ((div_le_one hproposed).mpr (not_le.mp hexceeds).le)
        rwa [hone] at hround
      unfold valueAt
      rw [OrderedMap.lookup_filterMap]
      cases hlookup : limited.lookup id with
      | none => exact le_rfl
      | some value =>
        obtain ⟨hvalue, hrounded⟩ := hsettled id value hlookup
        have hscaled := R.accounting_mono (mul_le_of_le_one_right hvalue hle)
        have htwice := R.accounting_mono hscaled
        rw [hrounded, hrounded] at htwice
        exact htwice

/-! ### A negative ratio -/

lemma ambientSum_foldl_mono {values values' : List ℚ} {total total' : ℚ}
    (h : List.Forall₂ (· ≤ ·) values values') (htotal : total ≤ total') :
    values.foldl (fun total x => R.ambient (total + x)) total
      ≤ values'.foldl (fun total x => R.ambient (total + x)) total' := by
  induction h generalizing total total' with
  | nil => exact htotal
  | cons hle _ ih => exact ih (R.ambient_mono (add_le_add htotal hle))

lemma ambientSum_foldl_nonpos {values : List ℚ} {total : ℚ} (h : ∀ x ∈ values, x ≤ 0)
    (htotal : total ≤ 0) : values.foldl (fun total x => R.ambient (total + x)) total ≤ 0 := by
  induction values generalizing total with
  | nil => exact htotal
  | cons x values ih =>
    rw [List.foldl_cons]
    apply ih fun y hy => h y (List.mem_cons_of_mem _ hy)
    exact R.ambient_nonpos (add_nonpos htotal (h x List.mem_cons_self))

/-- Values that are not positive raise no sum behind them. -/
lemma ambientSum_nonpos_append_le {front values : List ℚ} (h : ∀ x ∈ front, x ≤ 0) :
    R.ambientSum (front ++ values) ≤ R.ambientSum values := by
  unfold Rounding.ambientSum
  rw [List.foldl_append]
  exact ambientSum_foldl_mono (List.forall₂_same.mpr fun x _ => le_rfl)
    (ambientSum_foldl_nonpos h le_rfl)

/-- A value that does not grow raises no proposed capital. -/
lemma proposedCapital_set_le {values : TargetValues} {id : InstrumentId} {value : ℚ}
    (h : value ≤ valueAt values id) :
    proposedCapital R (OrderedMap.set values id value) ≤ proposedCapital R values := by
  unfold proposedCapital
  by_cases hmem : id ∈ values
  · rw [OrderedMap.set_of_mem value hmem, OrderedMap.entries_filterMap,
      OrderedMap.filterMapEntries]
    refine ambientSum_foldl_mono ?_ le_rfl
    simp only [Option.map_some, List.filterMap_eq_map', List.map_map, List.forall₂_map_left_iff,
      List.forall₂_map_right_iff, List.forall₂_same, Function.comp_def]
    intro e he
    split_ifs with heq
    · have hlookup : values.lookup e.1 = some e.2 := OrderedMap.lookup_eq_some_iff.mpr he
      rwa [valueAt, ← heq, hlookup] at h
    · exact le_rfl
  · rw [OrderedMap.entries_set_of_notMem value hmem, List.map_append]
    have hzero : value ≤ 0 := by
      rwa [valueAt, AList.lookup_eq_none.mpr hmem] at h
    unfold Rounding.ambientSum
    rw [List.foldl_append]
    exact (R.ambient_mono (add_le_of_nonpos_right hzero)).trans_eq (ambient_ambientSum _)

lemma limitValues_proposedCapital {target : PendingTarget} {positions : Positions} {marks : Marks}
    {values limited : TargetValues}
    (h : limitValues R target positions marks values = .ok limited) :
    proposedCapital R limited ≤ proposedCapital R values := by
  unfold limitValues at h
  refine foldlM_preserves (I := fun next => proposedCapital R next ≤ proposedCapital R values)
    (fun current e next hle hstep => ?_) le_rfl h
  rcases limitValue_cases hstep with ⟨-, rfl⟩ | ⟨position, -, rfl⟩
  · exact hle
  · exact (proposedCapital_set_le (min_le_left _ _)).trans hle

lemma keys_retainedValues_sublist {target : PendingTarget} {positions : Positions}
    {marks : Marks} : (retainedValues R target positions marks).keys.Sublist target.retained := by
  unfold retainedValues
  induction target.retained with
  | nil => exact List.nil_sublist _
  | cons id rest ih =>
    rw [List.filterMap_cons]
    cases positions.lookup id with
    | none => exact ih.cons id
    | some position => exact ih.cons_cons id

lemma PendingTarget.retained_nodup (target : PendingTarget) : target.retained.Nodup := by
  unfold PendingTarget.retained
  cases target.allocation with
  | none => exact List.nodup_nil
  | some allocation => exact allocation.retained_nodup

lemma reducedValues_nonpos {target : PendingTarget} {positions : Positions} {marks : Marks}
    {ratio : ℚ} (hvalues : ∀ id position, positions.lookup id = some position →
      0 ≤ position.adjustedUnits * marks id) (hratio : ratio ≤ 0)
    {row : Sigma fun _ : InstrumentId => ℚ}
    (hrow : row ∈ (reducedValues R target positions marks ratio).entries) :
    row.1 ∉ target.retained ∧ row.2 ≤ 0 := by
  have hlookup := OrderedMap.lookup_eq_some_iff.mpr hrow
  rw [reducedValues, OrderedMap.lookup_filterMap, Option.bind_eq_some_iff] at hlookup
  obtain ⟨position, hposition, hvalue⟩ := hlookup
  split_ifs at hvalue with hmem
  rw [Rounding.money_ambient] at hvalue
  refine ⟨hmem, Option.some.inj hvalue ▸ R.ambient_nonpos ?_⟩
  exact mul_nonpos_of_nonneg_of_nonpos (R.ambient_nonneg (hvalues row.1 position hposition)) hratio

/-- Scaled by a negative ratio, holdings add nothing to the retained ones. -/
lemma uncappedValues_proposedCapital {target : PendingTarget} {positions : Positions}
    {marks : Marks} {capital : ℚ} (hvalues : ∀ id position, positions.lookup id = some position →
      0 ≤ position.adjustedUnits * marks id) (hreduce : target.mode = .reduce)
    (hratio : reductionRatio R target positions marks capital ≤ 0) :
    proposedCapital R (uncappedValues R target positions marks capital)
      ≤ R.ambientSum ((retainedValues R target positions marks).map Sigma.snd) := by
  let scaled := reducedValues R target positions marks
    (reductionRatio R target positions marks capital)
  have huncapped : uncappedValues R target positions marks capital =
      updateAll scaled (retainedValues R target positions marks) := by
    unfold uncappedValues
    simp only [hreduce, if_true, reduceCtorEq, or_self, if_false]
    rfl
  have hscaled : ∀ row ∈ scaled.entries, row.1 ∉ target.retained ∧ row.2 ≤ 0 :=
    fun row => reducedValues_nonpos hvalues hratio
  have hnodup : (scaled.entries ++ retainedValues R target positions marks).NodupKeys := by
    have hsublist := @keys_retainedValues_sublist R target positions marks
    rw [List.NodupKeys, List.keys_append, List.nodup_append]
    refine ⟨scaled.nodupKeys, target.retained_nodup.sublist hsublist, ?_⟩
    rintro _ hid other hother rfl
    obtain ⟨row, hrow, rfl⟩ := List.mem_map.mp hid
    exact (hscaled row hrow).1 (hsublist.subset hother)
  rw [huncapped, proposedCapital, updateAll, OrderedMap.entries_foldl_set hnodup, List.map_append]
  refine ambientSum_nonpos_append_le fun x hx => ?_
  obtain ⟨row, hrow, rfl⟩ := List.mem_map.mp hx
  exact (hscaled row hrow).2

/-- With a negative ratio the retained holdings leave some of the capital available. -/
lemma retained_lt_of_ratio {target : PendingTarget} {positions : Positions} {marks : Marks}
    {capital : ℚ} (hratio : reductionRatio R target positions marks capital < 0) :
    R.ambientSum ((retainedValues R target positions marks).map Sigma.snd) < capital := by
  by_contra hle
  have havailable : availableCapital R target positions marks capital = 0 :=
    max_eq_left (R.ambient_nonpos (sub_nonpos.mpr (not_lt.mp hle)))
  unfold reductionRatio at hratio
  rw [havailable] at hratio
  dsimp only at hratio
  rw [zero_div, R.ambient_zero, min_eq_right zero_le_one, ite_self] at hratio
  exact lt_irrefl _ hratio

lemma targetCapital_le_cap {target : PendingTarget} {preNetNav cap : ℚ}
    (hreduce : target.mode = .reduce) (hcap : target.maximumStockExposure = some cap) :
    targetCapital R target preNetNav ≤ R.money (R.ambient (preNetNav * cap)) := by
  unfold targetCapital
  cases hallocation : target.allocation with
  | none =>
    rw [PendingTarget.mode, hallocation] at hreduce
    cases hreduce
  | some allocation =>
    rw [hcap]
    exact min_le_right _ _

/-- Below the exposure cap nothing is scaled. -/
lemma capValues_eq_of_le {target : PendingTarget} {preNetNav : ℚ}
    {monetary limited monetary' values : TargetValues}
    (hle : ∀ cap, target.maximumStockExposure = some cap →
      proposedCapital R limited ≤ R.money (R.ambient (preNetNav * cap)))
    (h : capValues R target preNetNav monetary limited = .ok (monetary', values)) :
    values = limited := by
  unfold capValues at h
  cases hcap : target.maximumStockExposure with
  | none =>
    rw [hcap] at h
    exact (Prod.mk.inj (Except.ok.inj h)).2.symm
  | some cap =>
    rw [hcap] at h
    dsimp only at h
    rw [if_pos (hle cap hcap)] at h
    exact (Prod.mk.inj (Except.ok.inj h)).2.symm

/-! ### Sizing -/

lemma sizeTarget_ok {target : PendingTarget} {positions : Positions} {marks : Marks}
    {preNetNav : ℚ} {sizing : Sizing}
    (h : sizeTarget R target positions marks preNetNav = .ok sizing) :
    ∃ limited monetary values,
      limitValues R target positions marks
          (uncappedValues R target positions marks (targetCapital R target preNetNav))
        = .ok limited
      ∧ capValues R target preNetNav
          (uncappedValues R target positions marks (targetCapital R target preNetNav)) limited
        = .ok (monetary, values)
      ∧ sizing.targetValues = valueAt values
      ∧ sizing.buyCandidates = (if target.mode = .reduce then [] else target.candidates)
      ∧ sizing.buyDeficits = buyDeficit R positions marks values := by
  unfold sizeTarget at h
  simp only [bind_ok_iff, pure_ok_iff, Prod.exists] at h
  obtain ⟨limited, hlimited, monetary, values, hcapped, rfl⟩ := h
  exact ⟨limited, monetary, values, hlimited, hcapped, rfl, rfl, rfl⟩

/-- A holding worth more than its target value has no deficit. -/
lemma buyDeficit_nonpos {positions : Positions} {marks : Marks} {values : TargetValues}
    {id : InstrumentId} {position : Position} (hposition : positions.lookup id = some position)
    (h : valueAt values id ≤ holdingValue R marks id position) :
    buyDeficit R positions marks values id ≤ 0 := by
  unfold buyDeficit
  rw [hposition]
  exact R.ambient_nonpos (sub_nonpos.mpr h)

/-! ### Rounding of a limit value -/

lemma decimal_one : Rounding.decimal.accounting 1 = 1 :=
  roundTo_of_representable ⟨1, 0, by norm_num, by norm_num⟩

lemma decimal_ambient_le {x : ℚ} (h : 0 ≤ x) :
    Rounding.decimal.ambient x ≤ x * (1 + 1 / 10 ^ 27) := by
  have hround := roundTo_le_add (p := 28) (by decide) h
  calc Rounding.decimal.ambient x ≤ x + x / 10 ^ 27 := hround
    _ = x * (1 + 1 / 10 ^ 27) := by ring

/-- A limit value exceeds the value held by two roundings at most. -/
lemma limitedValue_le {marks : Marks} {id : InstrumentId} {position : Position} {maximum : ℕ}
    (hvalue : 0 ≤ position.adjustedUnits * marks id) (hshares : 0 < position.executionShares)
    (hmaximum : (maximum : ℤ) ≤ position.executionShares) :
    limitedValue .decimal marks id position maximum
      ≤ holdingValue .decimal marks id position * (1 + 1 / 10 ^ 27) ^ 2 := by
  unfold limitedValue holdingValue
  rw [Rounding.money_ambient, Rounding.money_ambient]
  have hheld := Rounding.decimal.ambient_nonneg hvalue
  generalize Rounding.decimal.ambient (position.adjustedUnits * marks id) = held at hheld ⊢
  have hsharesQ : (0 : ℚ) < position.executionShares := by exact_mod_cast hshares
  have hmaximumQ : (maximum : ℚ) ≤ position.executionShares := by exact_mod_cast hmaximum
  have hproduct : (0 : ℚ) ≤ held * maximum := mul_nonneg hheld (Nat.cast_nonneg _)
  have hinner : Rounding.decimal.ambient (held * maximum) / position.executionShares
      ≤ held * (1 + 1 / 10 ^ 27) := by
    rw [div_le_iff₀ hsharesQ]
    calc Rounding.decimal.ambient (held * maximum) ≤ held * maximum * (1 + 1 / 10 ^ 27) :=
          decimal_ambient_le hproduct
      _ ≤ held * position.executionShares * (1 + 1 / 10 ^ 27) := by
          have hle := mul_le_mul_of_nonneg_left hmaximumQ hheld
          exact mul_le_mul_of_nonneg_right hle (by norm_num)
      _ = held * (1 + 1 / 10 ^ 27) * position.executionShares := by ring
  have hinnerNonneg : 0 ≤ Rounding.decimal.ambient (held * maximum) / position.executionShares :=
    div_nonneg (Rounding.decimal.ambient_nonneg hproduct) hsharesQ.le
  calc Rounding.decimal.ambient
        (Rounding.decimal.ambient (held * maximum) / position.executionShares)
      ≤ Rounding.decimal.ambient (held * maximum) / position.executionShares
          * (1 + 1 / 10 ^ 27) := decimal_ambient_le hinnerNonneg
    _ ≤ held * (1 + 1 / 10 ^ 27) * (1 + 1 / 10 ^ 27) :=
        mul_le_mul_of_nonneg_right hinner (by norm_num)
    _ = held * (1 + 1 / 10 ^ 27) ^ 2 := by ring

/-- What a limited holding lacks of its limit value is a rounding error. -/
lemma buyDeficit_limited_le {positions : Positions} {marks : Marks} {values : TargetValues}
    {id : InstrumentId} {position : Position} {maximum : ℕ}
    (hposition : positions.lookup id = some position)
    (hvalue : 0 ≤ position.adjustedUnits * marks id) (hshares : 0 < position.executionShares)
    (hmaximum : (maximum : ℤ) ≤ position.executionShares)
    (h : valueAt values id ≤ limitedValue .decimal marks id position maximum) :
    buyDeficit .decimal positions marks values id
      ≤ holdingValue .decimal marks id position * (3 / 10 ^ 27) := by
  have hheld : 0 ≤ holdingValue .decimal marks id position :=
    (settled_ambient (R := .decimal) hvalue).nonneg
  have htarget := h.trans (limitedValue_le hvalue hshares hmaximum)
  have hround : buyDeficit .decimal positions marks values id
      ≤ Rounding.decimal.ambient (holdingValue .decimal marks id position
        * ((1 + 1 / 10 ^ 27) ^ 2 - 1)) := by
    unfold buyDeficit
    rw [hposition]
    apply Rounding.decimal.ambient_mono
    change valueAt values id - holdingValue .decimal marks id position ≤ _
    linarith
  have hexcess : 0 ≤ holdingValue .decimal marks id position * ((1 + 1 / 10 ^ 27) ^ 2 - 1) :=
    mul_nonneg hheld (by norm_num)
  calc buyDeficit .decimal positions marks values id
      ≤ holdingValue .decimal marks id position * ((1 + 1 / 10 ^ 27) ^ 2 - 1)
          * (1 + 1 / 10 ^ 27) := hround.trans (decimal_ambient_le hexcess)
    _ = holdingValue .decimal marks id position
          * (((1 + 1 / 10 ^ 27) ^ 2 - 1) * (1 + 1 / 10 ^ 27)) := by ring
    _ ≤ holdingValue .decimal marks id position * (3 / 10 ^ 27) :=
        mul_le_mul_of_nonneg_left (by norm_num) hheld

/-- A deficit below the price of 99 shares pays for no lot. -/
lemma price_le_of_affords {terms : TargetTerms} {id : InstrumentId} {deficit : ℚ}
    {price : ExecutionPrice}
    (hprice : terms.data.executionPrices terms.session id = some price)
    (hpos : 0 < buyPrice .decimal terms.costs price) (h : Affords .decimal terms id deficit) :
    99 * buyPrice .decimal terms.costs price ≤ deficit := by
  obtain ⟨price', hprice', -, hshares⟩ := h
  rw [hprice] at hprice'
  cases hprice'
  by_contra hlt
  have hquotient : deficit / buyPrice .decimal terms.costs price ≤ 99 := by
    rw [div_le_iff₀ hpos]
    exact (not_le.mp hlt).le
  have hround := Rounding.decimal.accounting_mono hquotient
  have hexact : Rounding.decimal.accounting 99 = 99 :=
    roundTo_of_representable ⟨99, 0, by norm_num, by norm_num⟩
  rw [hexact] at hround
  linarith

/-! ### Sessions -/

variable {B : Binary64 F} {session : Session}

lemma executeTarget_ok {target : PendingTarget} {opened : OpenedSession}
    {traded : TradedSession F E}
    (h : executeTarget R B data costs session target opened = .ok traded) :
    ∃ sizing sold start bought,
      sizeTarget R target opened.account.positions opened.marks opened.preNetNav = .ok sizing
      ∧ runSells R ⟨data, costs, session, target, sizing⟩ opened
          (emptyTargetDiagnostics session target) = .ok sold
      ∧ start.trading.journal = sold.journal
      ∧ runBuys R ⟨data, costs, session, target, sizing⟩ start = .ok bought
      ∧ traded.trading.journal = bought.trading.journal := by
  unfold executeTarget at h
  simp only [bind_ok_iff, Prod.exists] at h
  obtain ⟨sizing, hsizing, sold, hsold, start, events, hstart, bought, hbought, hsettle⟩ := h
  refine ⟨sizing, sold, start, bought, hsizing, hsold, ?_, hbought, ?_⟩
  · rw [(remarkForBuys_ok hstart).1]
  · rw [(settleTarget_ok hsettle).1]

lemma emptyTargetDiagnostics_orders (session : Session) (target : PendingTarget) :
    (emptyTargetDiagnostics (E := E) session target).orders = []
      ∧ (emptyTargetDiagnostics (E := E) session target).fills = [] := by
  unfold emptyTargetDiagnostics
  split_ifs <;> exact ⟨rfl, rfl⟩

/-- Share limits passed the check before the Open, and the Open mark moves no share. -/
lemma limit_le_shares {target : PendingTarget} {account : Account} {opened : OpenedSession}
    (hcheck : checkTarget data account.positions target = .ok ())
    (hopen : openSession R data session account = .ok opened)
    {e : Sigma fun _ : InstrumentId => ℕ} (he : e ∈ target.positionLimits.entries)
    {position : Position} (hposition : opened.account.positions.lookup e.1 = some position) :
    (e.2 : ℤ) ≤ position.executionShares := by
  obtain ⟨-, rfl⟩ := openSession_ok hopen
  obtain ⟨before, price, hbefore, rfl⟩ := lookup_openMarked hposition
  unfold checkTarget at hcheck
  simp only [bind_ok_iff, require_ok_iff, exists_const] at hcheck
  obtain ⟨held, hheld, hle⟩ := hcheck.2 e he
  rw [hbefore] at hheld
  cases hheld
  exact hle

/-- A limited holding that left the account at the Open mark has no Open to be bought at. -/
lemma price_of_limited {target : PendingTarget} {account : Account} {opened : OpenedSession}
    (hcheck : checkTarget data account.positions target = .ok ())
    (hopen : openSession R data session account = .ok opened)
    {e : Sigma fun _ : InstrumentId => ℕ} (he : e ∈ target.positionLimits.entries)
    {price : ExecutionPrice} (hprice : data.executionPrices session e.1 = some price) :
    ∃ position, opened.account.positions.lookup e.1 = some position := by
  obtain ⟨-, rfl⟩ := openSession_ok hopen
  unfold checkTarget at hcheck
  simp only [bind_ok_iff, require_ok_iff, exists_const] at hcheck
  obtain ⟨held, hheld, -⟩ := hcheck.2 e he
  refine ⟨{ held with lastAdjustedPrice := price.adjustedOpen }, ?_⟩
  change (openMarked data session account.positions).lookup e.1 = _
  unfold openMarked
  rw [OrderedMap.lookup_filterMap, Option.mem_def.mp hheld]
  unfold openMark
  rw [hprice]
  rfl

lemma OpenedSession.Valued.nonneg {opened : OpenedSession} (h : opened.Valued) (id : InstrumentId)
    (position : Position) (hposition : opened.account.positions.lookup id = some position) :
    0 ≤ position.adjustedUnits * opened.marks id :=
  mul_nonneg (h.units id position hposition) (h.marks id position hposition)

/-- The exposure cap leaves every target value at or below its limited value: a reduction by a
negative ratio does not reach it. -/
lemma cappedValues_le {target : PendingTarget} {opened : OpenedSession}
    {limited monetary values : TargetValues} (hvalued : opened.Valued)
    (hlimited : limitValues .decimal target opened.account.positions opened.marks
      (uncappedValues .decimal target opened.account.positions opened.marks
        (targetCapital .decimal target opened.preNetNav)) = .ok limited)
    (hcapped : capValues .decimal target opened.preNetNav
      (uncappedValues .decimal target opened.account.positions opened.marks
        (targetCapital .decimal target opened.preNetNav)) limited = .ok (monetary, values))
    (id : InstrumentId) : valueAt values id ≤ valueAt limited id := by
  by_cases hratio : target.mode = .reduce → 0 ≤ reductionRatio .decimal target
      opened.account.positions opened.marks (targetCapital .decimal target opened.preNetNav)
  · have huncapped := uncappedValues_settled hvalued.nonneg hratio
    have hsettled := limitValues_settled (fun id position hposition =>
      ⟨hvalued.nonneg id position hposition, hvalued.shares id position hposition⟩) hlimited
      huncapped
    exact capValues_le decimal_one hsettled hcapped id
  · obtain ⟨hreduce, hnegative⟩ := Classical.not_imp.mp hratio
    have hnegative := not_le.mp hnegative
    have hproposed := (limitValues_proposedCapital hlimited).trans
      (uncappedValues_proposedCapital hvalued.nonneg hreduce hnegative.le)
    have hbelow := capValues_eq_of_le (fun cap hcap => hproposed.trans
      ((retained_lt_of_ratio hnegative).le.trans (targetCapital_le_cap hreduce hcap))) hcapped
    rw [hbelow]

/-- A holding under a share limit is not bought while its value is below `10 ^ 28` times its buy
price: its deficit is at most the rounding of its limit value. -/
theorem limited_notBought {target : PendingTarget} {account : Account}
    {opened : OpenedSession} {traded : TradedSession F E}
    (hcheck : checkTarget data account.positions target = .ok ())
    (hopen : openSession .decimal data session account = .ok opened) (hvalued : opened.Valued)
    (htraded : executeTarget .decimal B data costs session target opened = .ok traded)
    {e : Sigma fun _ : InstrumentId => ℕ} (he : e ∈ target.positionLimits.entries)
    (hsmall : ∀ position price, opened.account.positions.lookup e.1 = some position →
      data.executionPrices session e.1 = some price →
      holdingValue .decimal opened.marks e.1 position < 10 ^ 28 * buyPrice .decimal costs price) :
    ¬traded.trading.journal.Bought e.1 := by
  obtain ⟨sizing, sold, start, bought, hsizing, hsells, hstart, hbuys, hjournal⟩ :=
    executeTarget_ok htraded
  obtain ⟨limited, monetary, values, hlimited, hcapped, -, -, hdeficits⟩ :=
    sizeTarget_ok hsizing
  have hsold := runSells_soldOnly (emptyTargetDiagnostics_orders session target).1
    (emptyTargetDiagnostics_orders session target).2 hsells
  have hbought := runBuys_boughtOnly hbuys
  rw [hstart, ← hjournal] at hbought
  rintro ⟨fill, hfill, hinstrument, hside⟩
  rcases hbought.fills fill hfill with hold | ⟨hcandidate, deficit, -, hle, haffords⟩
  · rw [hsold.fills fill hold] at hside
    cases hside
  · rw [hinstrument] at hcandidate hle haffords
    have haffords' := haffords
    obtain ⟨price, hprice, -, -⟩ := haffords'
    obtain ⟨position, hposition⟩ := price_of_limited hcheck hopen he hprice
    have hnonneg := hvalued.nonneg e.1 position hposition
    have hheld : 0 ≤ holdingValue .decimal opened.marks e.1 position :=
      (settled_ambient (R := .decimal) hnonneg).nonneg
    have hbelow := hsmall position price hposition hprice
    have hbuyPrice : 0 < buyPrice .decimal costs price := by
      have hscaled := hheld.trans_lt hbelow
      linarith
    have hcap := cappedValues_le hvalued hlimited hcapped e.1
    have hlimit := (limitValues_le hlimited).2 e he position hposition
    have hdeficit := buyDeficit_limited_le hposition hnonneg
      (hvalued.shares e.1 position hposition) (limit_le_shares hcheck hopen he hposition)
      (hcap.trans hlimit)
    rw [← hdeficits] at hdeficit
    have hlot := price_le_of_affords hprice hbuyPrice haffords
    -- 99 shares cost more than three units in the 27th digit of the holding
    have hbound : 99 * buyPrice .decimal costs price
        ≤ holdingValue .decimal opened.marks e.1 position * (3 / 10 ^ 27) :=
      (hlot.trans hle).trans hdeficit
    linarith

/-- In every session no instrument is both sold and bought, only candidates are bought, a
holding under a share limit is not bought while its value is below `10 ^ 28` times its buy
price, and neither the share limits nor the exposure cap raise a target value. -/
theorem one_direction_per_instrument {target : PendingTarget} {account : Account}
    {opened : OpenedSession} {traded : TradedSession F E}
    (hcheck : checkTarget data account.positions target = .ok ())
    (hopen : openSession .decimal data session account = .ok opened) (hvalued : opened.Valued)
    (htraded : executeTarget .decimal B data costs session target opened = .ok traded) :
    (∀ id, ¬(traded.trading.journal.Ordered id .sell ∧ traded.trading.journal.Ordered id .buy))
      ∧ (∀ id, id ∉ target.candidates → ¬traded.trading.journal.Ordered id .buy)
      ∧ (∀ e ∈ target.positionLimits.entries,
        (∀ position price, opened.account.positions.lookup e.1 = some position →
          data.executionPrices session e.1 = some price →
          holdingValue .decimal opened.marks e.1 position
            < 10 ^ 28 * buyPrice .decimal costs price) →
          ¬traded.trading.journal.Bought e.1)
      ∧ ∃ uncapped limited sizing,
        uncapped = uncappedValues .decimal target opened.account.positions opened.marks
          (targetCapital .decimal target opened.preNetNav)
        ∧ limitValues .decimal target opened.account.positions opened.marks uncapped = .ok limited
        ∧ sizeTarget .decimal target opened.account.positions opened.marks opened.preNetNav
          = .ok sizing
        ∧ (∀ id, valueAt limited id ≤ valueAt uncapped id)
        ∧ ∀ id, sizing.targetValues id ≤ valueAt limited id := by
  obtain ⟨sizing, sold, start, bought, hsizing, hsells, hstart, hbuys, hjournal⟩ :=
    executeTarget_ok htraded
  obtain ⟨limited, monetary, values, hlimited, hcapped, htargets, hcandidates, hdeficits⟩ :=
    sizeTarget_ok hsizing
  obtain ⟨hnoOrders, hnoFills⟩ := emptyTargetDiagnostics_orders (E := E) session target
  have hsold := runSells_soldOnly hnoOrders hnoFills hsells
  have hbought := runBuys_boughtOnly hbuys
  rw [hstart, ← hjournal] at hbought
  have hbuyOrder : ∀ id, traded.trading.journal.Ordered id .buy →
      id ∈ sizing.buyCandidates ∧ 0 < sizing.buyDeficits id := by
    rintro id ⟨order, horder, rfl, hside⟩
    rcases hbought.orders order horder with hold | ⟨-, hcandidate, hdeficit⟩
    · rw [(hsold.orders order hold).1] at hside
      cases hside
    · exact ⟨hcandidate, hdeficit⟩
  refine ⟨?oneSide, ?outside, fun e he => limited_notBought hcheck hopen hvalued htraded he, _,
    limited, sizing, rfl, hlimited, hsizing, (limitValues_le hlimited).1, ?_⟩
  case oneSide =>
    rintro id ⟨⟨order, horder, rfl, hside⟩, hbuy⟩
    obtain ⟨-, hdeficit⟩ := hbuyOrder _ hbuy
    rcases hbought.orders order horder with hold | ⟨hbuySide, -, -⟩
    · obtain ⟨-, position, hposition, hlt⟩ := hsold.orders order hold
      rw [htargets] at hlt
      rw [hdeficits] at hdeficit
      exact absurd hdeficit (not_lt.mpr (buyDeficit_nonpos hposition hlt.le))
    · rw [hbuySide] at hside
      cases hside
  case outside =>
    intro id hid hbuy
    have hcandidate := (hbuyOrder id hbuy).1
    rw [hcandidates] at hcandidate
    split_ifs at hcandidate
    · cases hcandidate
    · exact hid hcandidate
  · rw [htargets]
    exact cappedValues_le hvalued hlimited hcapped

/-! ### A limit value that is rounded up -/

/-- One holding of three hundred shares, with a value of `units` pennies. -/
def pennyAccount (units : ℚ) : Account where
  positions := OrderedMap.ofRows [⟨1,
    { executionShares := 300
      adjustedUnits := units
      lastAdjustedPrice := 1 / 100
      remainingAcquisitionCost := 0
      holdingCycleStartedSession := 0
      holdingAge := 1
      lastCloseAdjustedPrice := some (1 / 100) }⟩]
  grossCash := 100
  netCash := 100
  cumulativeCost := 0

def pennyMarket : MarketData :=
  sampleMarket fun _ _ => some (1 / 100)

/-- Everything into the held stock, but at most the shares that are held. -/
def heldTarget : PendingTarget :=
  { equalTarget 0 [1] nodup_first with
    positionLimits := OrderedMap.ofRows [⟨1, 300⟩]
    not_empty := .inl rfl }

def pennyOpened (units : ℚ) : OpenedSession :=
  { account := pennyAccount units
    marks := marksOf (pennyAccount units).positions
    events := []
    preGrossNav := navOf .decimal 100 (pennyAccount units).positions
      (marksOf (pennyAccount units).positions)
    preNetNav := navOf .decimal 100 (pennyAccount units).positions
      (marksOf (pennyAccount units).positions) }

lemma pennyAccount_opens (units : ℚ) :
    openSession .decimal pennyMarket 1 (pennyAccount units) = .ok (pennyOpened units) := rfl

lemma pennyAccount_checks (units : ℚ) :
    checkTarget pennyMarket (pennyAccount units).positions heldTarget = .ok () := rfl

lemma pennyOpened_valued {units : ℚ} (h : 0 ≤ units) : (pennyOpened units).Valued := by
  have hheld : ∀ id position, (pennyOpened units).account.positions.lookup id = some position →
      id = 1 ∧ position.executionShares = 300 ∧ position.adjustedUnits = units := by
    intro id position hposition
    have hmem := OrderedMap.lookup_eq_some_iff.mp hposition
    rcases List.mem_singleton.mp hmem with heq
    cases heq
    exact ⟨rfl, rfl, rfl⟩
  constructor
  case shares =>
    intro id position hposition
    rw [(hheld id position hposition).2.1]
    decide
  case units =>
    intro id position hposition
    rw [(hheld id position hposition).2.2]
    exact h
  case marks =>
    intro id position hposition
    rw [(hheld id position hposition).1]
    have hmark : (pennyOpened units).marks 1 = 1 / 100 := rfl
    rw [hmark]
    norm_num

lemma pennyOpened_trades :
    stoppedBy (executeTarget (E := Unit) .decimal rationalBinary64 pennyMarket (sampleCosts 0) 1
      heldTarget (pennyOpened 300)) = none := by
  decide +kernel

/-- The limited stock of an ordinary account is on no two sides. -/
theorem one_direction_per_instrument_penny :
    ¬((okValue _ pennyOpened_trades).trading.journal.Ordered 1 .sell
      ∧ (okValue _ pennyOpened_trades).trading.journal.Ordered 1 .buy) :=
  (one_direction_per_instrument (pennyAccount_checks 300) (pennyAccount_opens 300)
    (pennyOpened_valued (by norm_num)) (okValue_eq pennyOpened_trades)).1 1

lemma pennyOpened_buys :
    stoppedBy (executeTarget (E := Unit) .decimal rationalBinary64 pennyMarket (sampleCosts 0) 1
      heldTarget (pennyOpened (10 ^ 30 - 100))) = none := by
  decide +kernel

/-- A holding of `10 ^ 28 - 1` is worth `10 ^ 28` at its full share limit in 28 digits, and the
difference buys a hundred more shares at a penny. -/
theorem limited_holding_bought :
    ∃ (account : Account) (opened : OpenedSession) (traded : TradedSession ℚ Unit),
      checkTarget pennyMarket account.positions heldTarget = .ok ()
        ∧ openSession .decimal pennyMarket 1 account = .ok opened ∧ opened.Valued
        ∧ executeTarget .decimal rationalBinary64 pennyMarket (sampleCosts 0) 1 heldTarget opened
          = .ok traded
        ∧ ⟨1, 300⟩ ∈ heldTarget.positionLimits.entries ∧ traded.trading.journal.Bought 1 := by
  refine ⟨_, _, _, pennyAccount_checks (10 ^ 30 - 100), pennyAccount_opens _,
    pennyOpened_valued (by norm_num), okValue_eq pennyOpened_buys, by decide, ?_⟩
  change ∃ fill ∈ _, _ ∧ _
  decide +kernel

end ThesisTrace.Strategy
