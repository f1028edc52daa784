import ThesisTrace.Library.Outcomes
import ThesisTrace.Strategy.HoldingMoves
import ThesisTrace.Strategy.MetricsStreaming
import ThesisTrace.Strategy.Report

/-!
# Take-profit cycles over whole runs

A stored cycle follows the holding of its instrument from Close to Close: its limit is in force
while it lasts, so the holding is only reduced, and what was executed of the baseline is what the
sales took, up to the digits of the accounting context.
-/

namespace ThesisTrace.Risk
open Strategy DecimalText DecimalContext Transaction

/-! ### Cycles and holdings -/

/-- The difference that the digits of the sales of a cycle can make, at most one sale a share. -/
def digitsLost (baseline : ℚ) (cycle : TakeProfitCycle) (shares : ℤ) : ℚ :=
  (cycle.baselineExecutionShares - shares : ℤ) * (3 * baseline / 10 ^ 33)

/-- A stored cycle and the holding that it follows. -/
structure CycleTracked (tiers : List TakeProfitTier) (position : Position)
    (cycle : TakeProfitCycle) (baseline executed : ℚ) : Prop where
  started : cycle.holdingCycleStartedSession = position.holdingCycleStartedSession
  shares : cycle.lastExecutionShares = position.executionShares
  last : cycle.lastAdjustedUnits = canonicalDecimal position.adjustedUnits
  tier : cycle.highestTriggeredTier < tiers.length
  baselineText : cycle.baselineAdjustedUnits = canonicalDecimal baseline
  executedText : cycle.executedReductionUnits = canonicalDecimal executed
  baseline_context : InContext 34 6176 baseline
  executed_context : InContext 34 6176 executed
  executed_nonneg : 0 ≤ executed
  executed_le : executed ≤ baseline
  units_le : position.adjustedUnits ≤ baseline
  shares_le : position.executionShares ≤ cycle.baselineExecutionShares
  few : cycle.baselineExecutionShares < 10 ^ 13
  digits : |executed + position.adjustedUnits - baseline|
    ≤ digitsLost baseline cycle position.executionShares
  proportion : baseline * position.executionShares
      * (1 - (cycle.baselineExecutionShares - position.executionShares : ℤ) / 10 ^ 19)
    ≤ position.adjustedUnits * cycle.baselineExecutionShares

/-! ### Sales -/

/-- What the units of a sale add to the executed reduction. -/
def executedBy (executed before after : ℚ) : ℚ :=
  Rounding.decimal.accounting (executed
    + max 0 (Rounding.decimal.accounting (before - after)))

lemma decimal_accounting_error {x : ℚ} (h : 0 ≤ x) :
    |Rounding.decimal.accounting x - x| ≤ x / 10 ^ 33 := by
  have hhigh := decimal_accounting_le h
  have hlow := le_decimal_accounting h
  rw [abs_le]
  constructor <;> linarith

/-- A sale adds its units, up to two roundings, and stays below the baseline while what is left
outweighs them. -/
lemma executedBy_bounds {baseline executed before after lost : ℚ}
    (hbaseline : Rounding.decimal.accounting baseline = baseline) (hexecuted : 0 ≤ executed)
    (hafter : 0 ≤ after) (hle : after ≤ before) (hbefore : before ≤ baseline)
    (hlost : |executed + before - baseline| ≤ lost)
    (hroom : lost + baseline / 10 ^ 33 ≤ after) :
    0 ≤ executedBy executed before after ∧ executedBy executed before after ≤ baseline
      ∧ |executedBy executed before after + after - baseline| ≤ lost + 2 * baseline / 10 ^ 33 := by
  have hsold : 0 ≤ before - after := sub_nonneg.mpr hle
  have hrounded := Rounding.decimal.accounting_nonneg hsold
  have herror := abs_le.mp (decimal_accounting_error hsold)
  unfold executedBy
  rw [max_eq_right hrounded]
  generalize Rounding.decimal.accounting (before - after) = sold at *
  have hsum : 0 ≤ executed + sold := add_nonneg hexecuted hrounded
  have hbound := abs_le.mp hlost
  have hbelow : executed + sold ≤ baseline := by linarith [herror.2, hbound.2]
  have hround := abs_le.mp (decimal_accounting_error hsum)
  refine ⟨Rounding.decimal.accounting_nonneg hsum, ?_, ?_⟩
  · have hmono := Rounding.decimal.accounting_mono hbelow
    rwa [hbaseline] at hmono
  · rw [abs_le]
    constructor <;> linarith [herror.1, herror.2, hbound.1, hbound.2, hround.1, hround.2]

/-- On a common decimal place no digit is lost. -/
lemma executedBy_exact {baseline executed before after : ℚ} {k : ℤ}
    (hdigits : baseline < 10 ^ (34 + k)) (hbaseline : Aligned k baseline)
    (hbefore : Aligned k before) (hafter : Aligned k after) (hnonneg : 0 ≤ after)
    (hle : after ≤ before) (hle' : before ≤ baseline) (hexact : executed + before = baseline) :
    executedBy executed before after + after = baseline := by
  have hrounded : ∀ x, Aligned k x → 0 ≤ x → x ≤ baseline → Rounding.decimal.accounting x = x :=
    fun x hx hx' hxle => roundTo_of_representable
      (Aligned.representable hx hx' (hxle.trans_lt (by exact_mod_cast hdigits)))
  have hsold : Rounding.decimal.accounting (before - after) = before - after :=
    hrounded _ (hbefore.sub hafter) (sub_nonneg.mpr hle) (by linarith)
  have hsum : executed + (before - after) = baseline - after := by linarith
  unfold executedBy
  rw [hsold, max_eq_right (sub_nonneg.mpr hle), hsum,
    hrounded _ (hbaseline.sub hafter) (by linarith) (by linarith)]
  ring

lemma executedBy_context {baseline executed before after : ℚ}
    (hbaseline : InContext 34 6176 baseline) (hexecuted : InContext 34 6176 executed)
    (hbefore : InContext 34 6176 before) (hafter : InContext 34 6176 after)
    (hnonneg : 0 ≤ executedBy executed before after)
    (hle : executedBy executed before after ≤ baseline) :
    InContext 34 6176 (executedBy executed before after) := by
  refine inContext_of_le hnonneg (representable_roundTo (by decide) _) ?_ hle hbaseline
  have hzero : Aligned (-(6176 : ℕ)) 0 := ⟨0, by simp⟩
  have hsold : Aligned (-(6176 : ℕ)) (Rounding.decimal.accounting (before - after)) :=
    (hbefore.aligned.sub hafter.aligned).roundTo
  refine (hexecuted.aligned.add ?_).roundTo
  rcases max_choice 0 (Rounding.decimal.accounting (before - after)) with hmax | hmax
  · rw [hmax]
    exact hzero
  · rw [hmax]
    exact hsold

/-! ### One Close of a cycle -/

/-- The row that a Close shows of a position. -/
structure RowOf (row : PositionRow) (position : Position) : Prop where
  shares : row.executionShares = position.executionShares
  units : row.adjustedUnits = position.adjustedUnits
  started : row.holdingCycleStartedSession = position.holdingCycleStartedSession

variable {tiers : List TakeProfitTier} {position after : Position} {row : PositionRow}
  {cycle : TakeProfitCycle} {baseline executed : ℚ}

lemma highestReached_lt {value : ℚ} {tier : ℕ} (h : highestReached tiers value = some tier) :
    tier < tiers.length := by
  have hmem := List.max?_mem h
  exact List.mem_range.mp (List.mem_of_mem_filter hmem)

lemma tier_max_lt {value : ℚ} (htier : cycle.highestTriggeredTier < tiers.length) :
    max cycle.highestTriggeredTier ((highestReached tiers value).getD 0) < tiers.length := by
  cases hreached : highestReached tiers value with
  | none => exact max_lt htier (Nat.zero_lt_of_lt htier)
  | some tier => exact max_lt htier (highestReached_lt hreached)

lemma quantityOf_canonical {x : ℚ} (h : InContext 34 6176 x) :
    quantityOf (canonicalDecimal x) = x := by
  unfold quantityOf
  rw [readDecimal_canonicalDecimal h.isDecimal]
  rfl

/-- A cycle begins with the units of its holding. -/
lemma tracked_opened {tier : ℕ} (hrow : RowOf row position) (hheld : HeldPosition position)
    (hfew : position.executionShares < 10 ^ 13) (hunits : InContext 34 6176 position.adjustedUnits)
    (htier : tier < tiers.length) :
    CycleTracked tiers position (openedCycle row tier) position.adjustedUnits 0 where
  started := hrow.started
  shares := hrow.shares
  last := congrArg canonicalDecimal hrow.units
  tier := htier
  baselineText := congrArg canonicalDecimal hrow.units
  executedText := rfl
  baseline_context := hunits
  executed_context := ⟨0, 0, by norm_num, by norm_num, by norm_num⟩
  executed_nonneg := le_rfl
  executed_le := hheld.units.le
  units_le := le_rfl
  shares_le := hrow.shares.ge
  few := by
    change row.executionShares < 10 ^ 13
    rw [hrow.shares]
    exact hfew
  digits := by
    unfold digitsLost
    change |0 + position.adjustedUnits - position.adjustedUnits|
      ≤ (row.executionShares - position.executionShares : ℤ) * (3 * position.adjustedUnits / 10 ^ 33)
    rw [hrow.shares, sub_self, zero_add, sub_self, abs_zero, Int.cast_zero, zero_mul]
  proportion := by
    change position.adjustedUnits * position.executionShares
        * (1 - (row.executionShares - position.executionShares : ℤ) / 10 ^ 19)
      ≤ position.adjustedUnits * row.executionShares
    rw [hrow.shares, sub_self, Int.cast_zero, zero_div, sub_zero, mul_one]

/-- A Close after which the holding is as before. -/
lemma CycleTracked.kept (h : CycleTracked tiers position cycle baseline executed)
    (hrow : RowOf row after) (hshares : after.executionShares = position.executionShares)
    (hunits : after.adjustedUnits = position.adjustedUnits)
    (hstarted : after.holdingCycleStartedSession = position.holdingCycleStartedSession)
    (value : ℚ) :
    CycleTracked tiers after
      (continuedCycle .decimal cycle row none (highestReached tiers value)) baseline executed where
  started := h.started.trans hstarted.symm
  shares := hrow.shares
  last := congrArg canonicalDecimal hrow.units
  tier := tier_max_lt h.tier
  baselineText := h.baselineText
  executedText := h.executedText
  baseline_context := h.baseline_context
  executed_context := h.executed_context
  executed_nonneg := h.executed_nonneg
  executed_le := h.executed_le
  units_le := hunits ▸ h.units_le
  shares_le := by
    rw [hshares]
    exact h.shares_le
  few := h.few
  digits := by
    rw [hunits, hshares]
    exact h.digits
  proportion := by
    rw [hunits, hshares]
    exact h.proportion

/-- In proportion to the shares, the units are at least half a share of the baseline. -/
lemma units_ge_of_proportion {total shares units : ℚ} (hbaseline : 0 ≤ baseline)
    (hunits : 0 ≤ units) (hshares : 1 ≤ shares) (hfew : total ≤ 10 ^ 13)
    (hproportion : baseline * shares * (1 - (total - shares) / 10 ^ 19) ≤ units * total) :
    baseline / (2 * 10 ^ 13) ≤ units := by
  have hhalf : 1 / 2 ≤ 1 - (total - shares) / 10 ^ 19 := by linarith
  have hkept : baseline * (1 / 2) ≤ units * total := by
    calc baseline * (1 / 2) ≤ baseline * shares * (1 / 2) := by
          have hscaled := mul_le_mul_of_nonneg_left hshares hbaseline
          linarith
      _ ≤ baseline * shares * (1 - (total - shares) / 10 ^ 19) :=
        mul_le_mul_of_nonneg_left hhalf (mul_nonneg hbaseline (by linarith))
      _ ≤ units * total := hproportion
  rw [div_le_iff₀ (by norm_num)]
  have htotal := mul_le_mul_of_nonneg_left hfew hunits
  linarith

lemma executedAfter_eq (h : CycleTracked tiers position cycle baseline executed)
    (hunits : InContext 34 6176 position.adjustedUnits) (units : ℚ) :
    executedAfter .decimal cycle units = executedBy executed position.adjustedUnits units := by
  unfold executedAfter executedBy
  rw [h.executedText, h.last, quantityOf_canonical h.executed_context, quantityOf_canonical hunits]

/-- The share of the units that stays in proportion to the shares, sale after sale. -/
lemma proportion_reduced {total shares sold units kept : ℚ} (hbaseline : 0 ≤ baseline)
    (hshares : 0 < shares) (hsold : 1 ≤ sold) (hlt : sold ≤ shares) (hle : shares ≤ total)
    (hproportion : baseline * shares * (1 - (total - shares) / 10 ^ 19) ≤ units * total)
    (hkept : units * (shares - sold) / shares * (1 - 1 / 10 ^ 19) ≤ kept) :
    baseline * (shares - sold) * (1 - (total - (shares - sold)) / 10 ^ 19) ≤ kept * total := by
  have htotal : 0 < total := hshares.trans_le hle
  have hstays : 0 ≤ (shares - sold) / shares := div_nonneg (by linarith) hshares.le
  have hscaled : baseline * (shares - sold) * (1 - (total - shares) / 10 ^ 19)
      ≤ units * total * ((shares - sold) / shares) := by
    have hmul := mul_le_mul_of_nonneg_right hproportion hstays
    have hcancel : baseline * shares * (1 - (total - shares) / 10 ^ 19)
        * ((shares - sold) / shares)
        = baseline * (shares - sold) * (1 - (total - shares) / 10 ^ 19) := by
      field_simp
    rwa [hcancel] at hmul
  have hpart : 0 ≤ baseline * (shares - sold) := mul_nonneg hbaseline (by linarith)
  calc baseline * (shares - sold) * (1 - (total - (shares - sold)) / 10 ^ 19)
      ≤ baseline * (shares - sold)
        * ((1 - (total - shares) / 10 ^ 19) * (1 - 1 / 10 ^ 19)) := by
        refine mul_le_mul_of_nonneg_left ?_ hpart
        have hgap : 0 ≤ (total - shares) / 10 ^ 19 := div_nonneg (by linarith) (by norm_num)
        linarith
    _ = baseline * (shares - sold) * (1 - (total - shares) / 10 ^ 19) * (1 - 1 / 10 ^ 19) := by ring
    _ ≤ units * total * ((shares - sold) / shares) * (1 - 1 / 10 ^ 19) :=
        mul_le_mul_of_nonneg_right hscaled (by norm_num)
    _ = units * (shares - sold) / shares * (1 - 1 / 10 ^ 19) * total := by ring
    _ ≤ kept * total := mul_le_mul_of_nonneg_right hkept htotal.le

/-- A Close after a sale of the holding. -/
lemma CycleTracked.reduced (h : CycleTracked tiers position cycle baseline executed)
    (hheld : HeldPosition position) (hcontext : InContext 34 6176 position.adjustedUnits)
    (hrow : RowOf row after) (hafterContext : InContext 34 6176 after.adjustedUnits)
    {quantity : ℕ} {removed : ℚ} (hpos : 0 < quantity)
    (hlt : (quantity : ℤ) < position.executionShares)
    (hremoved : removedUnits .decimal position quantity = .ok removed)
    (hshares : after.executionShares = position.executionShares - quantity)
    (hunits : after.adjustedUnits = Rounding.decimal.ambient (position.adjustedUnits - removed))
    (hstarted : after.holdingCycleStartedSession = position.holdingCycleStartedSession)
    (value : ℚ) :
    CycleTracked tiers after
      (continuedCycle .decimal cycle row (some quantity) (highestReached tiers value)) baseline
      (executedBy executed position.adjustedUnits after.adjustedUnits) := by
  have hfew : position.executionShares < 10 ^ 13 := h.shares_le.trans_lt h.few
  obtain ⟨hkept, hle, hunitsPos⟩ := reducedUnits_bounds hheld.units hpos hlt hfew hremoved
  rw [← hunits] at hkept hle hunitsPos
  have hbaselinePos : 0 ≤ baseline := h.executed_nonneg.trans h.executed_le
  have hsharesQ : (after.executionShares : ℚ) = position.executionShares - quantity := by
    rw [hshares]
    push_cast
    ring
  have hproportion : baseline * after.executionShares
        * (1 - (cycle.baselineExecutionShares - after.executionShares : ℤ) / 10 ^ 19)
      ≤ after.adjustedUnits * cycle.baselineExecutionShares := by
    have hbefore := h.proportion
    push_cast at hbefore ⊢
    rw [hsharesQ]
    exact proportion_reduced hbaselinePos (by exact_mod_cast hheld.shares) (by exact_mod_cast hpos)
      (by exact_mod_cast hlt.le) (by exact_mod_cast h.shares_le) hbefore hkept
  have hsharesLe : after.executionShares ≤ cycle.baselineExecutionShares := by
    have := h.shares_le
    omega
  -- the units that are left outweigh the digits that all sales together can lose
  have hroom : digitsLost baseline cycle position.executionShares + baseline / 10 ^ 33
      ≤ after.adjustedUnits := by
    have hone : (1 : ℚ) ≤ after.executionShares := by
      have hleft : (1 : ℤ) ≤ after.executionShares := by omega
      exact_mod_cast hleft
    have htotal : (cycle.baselineExecutionShares : ℚ) ≤ 10 ^ 13 := by exact_mod_cast h.few.le
    have hheldShares : (0 : ℚ) ≤ position.executionShares := by
      exact_mod_cast hheld.shares.le
    have hhalf := units_ge_of_proportion hbaselinePos hunitsPos.le hone htotal
      (by exact_mod_cast hproportion)
    have hlost : digitsLost baseline cycle position.executionShares
        ≤ 10 ^ 13 * (3 * baseline / 10 ^ 33) := by
      unfold digitsLost
      refine mul_le_mul_of_nonneg_right ?_ (by positivity)
      push_cast
      linarith
    have hscale : baseline / (2 * 10 ^ 13) = baseline / 10 ^ 33 * (10 ^ 20 / 2) := by ring
    have hbaseline33 : 0 ≤ baseline / 10 ^ 33 := by positivity
    have hlost' : digitsLost baseline cycle position.executionShares
        ≤ baseline / 10 ^ 33 * (3 * 10 ^ 13) := by
      calc _ ≤ _ := hlost
        _ = baseline / 10 ^ 33 * (3 * 10 ^ 13) := by ring
    rw [hscale] at hhalf
    linarith
  have hbaselineRounded : Rounding.decimal.accounting baseline = baseline := by
    obtain ⟨m, k, hm, -, hk⟩ := h.baseline_context
    exact roundTo_of_representable ⟨m, k, hm, hk⟩
  obtain ⟨hnonneg, hexecutedLe, hdigits⟩ := executedBy_bounds hbaselineRounded h.executed_nonneg
    hunitsPos.le hle h.units_le h.digits hroom
  exact {
    started := h.started.trans hstarted.symm
    shares := hrow.shares
    last := congrArg canonicalDecimal hrow.units
    tier := tier_max_lt h.tier
    baselineText := h.baselineText
    executedText := by
      change canonicalDecimal (executedAfter .decimal cycle row.adjustedUnits) = _
      rw [executedAfter_eq h hcontext, hrow.units]
    baseline_context := h.baseline_context
    executed_context := executedBy_context h.baseline_context h.executed_context hcontext
      hafterContext hnonneg hexecutedLe
    executed_nonneg := hnonneg
    executed_le := hexecutedLe
    units_le := hle.trans h.units_le
    shares_le := hsharesLe
    few := h.few
    digits := by
      refine hdigits.trans ?_
      unfold digitsLost
      change ((cycle.baselineExecutionShares - position.executionShares : ℤ) : ℚ)
          * (3 * baseline / 10 ^ 33) + 2 * baseline / 10 ^ 33
        ≤ ((cycle.baselineExecutionShares - after.executionShares : ℤ) : ℚ)
          * (3 * baseline / 10 ^ 33)
      push_cast
      rw [hsharesQ]
      have hone : (1 : ℚ) ≤ quantity := by exact_mod_cast hpos
      have hunit : 0 ≤ baseline / 10 ^ 33 := by positivity
      have hsale := mul_le_mul_of_nonneg_right hone hunit
      linarith
    proportion := hproportion }

/-! ### Validation -/

lemma readQuantity_canonical (field : String) {x : ℚ} (hx : 0 ≤ x) (h : InContext 34 6176 x) :
    readQuantity field (canonicalDecimal x) = .ok x := by
  have hlength := @length_canonicalDecimal 34 6176 4 x (by decide) (by decide) (by norm_num) h
  unfold readQuantity
  rw [if_neg (by omega), readDecimal_canonicalDecimal h.isDecimal]
  dsimp only
  rw [if_neg]
  rintro (hneg | hne)
  · exact absurd hneg (not_lt.mpr hx)
  · exact hne rfl

/-- The cycle of a held position validates. -/
lemma CycleTracked.validates (h : CycleTracked tiers position cycle baseline executed)
    (hheld : HeldPosition position) (hcontext : InContext 34 6176 position.adjustedUnits)
    (htiers : tiers.length ≤ 100) : cycle.modelValidate = .ok () := by
  have htier := h.tier
  have hbaseline : 0 < baseline := hheld.units.trans_le h.units_le
  unfold TakeProfitCycle.modelValidate
  rw [h.baselineText, h.executedText, h.last, readQuantity_canonical _ hbaseline.le
    h.baseline_context, readQuantity_canonical _ h.executed_nonneg h.executed_context,
    readQuantity_canonical _ hheld.units.le hcontext, h.shares]
  simp only [bind_ok_iff, require_ok_iff, Except.ok.injEq, exists_const, exists_eq_left']
  exact ⟨hheld.shares.trans_le h.shares_le, by omega, hheld.shares, hbaseline,
    ⟨hheld.units, h.units_le⟩, h.executed_le⟩

/-! ### The decision of a Close -/

/-- Every cycle and every limit of a decision comes from a row of the account. -/
def Decided (tiers : List TakeProfitTier) (previous : TakeProfitState) (fills : List FillEvent)
    (rows : List PositionRow) (decision : TakeProfitDecision) : Prop :=
  ∀ id cycle, decision.state.lookup id = some cycle → ∃ row ∈ rows, ∃ tier,
    row.instrument = id ∧ advancedCycle .decimal tiers previous fills row = some cycle
      ∧ tiers[cycle.highestTriggeredTier]? = some tier
      ∧ decision.limits.lookup id = some (positionLimit .decimal tier cycle row).toNat
      ∧ decision.observations ≠ []

variable {previous : TakeProfitState} {fills : List FillEvent} {rows : List PositionRow}

lemma takeProfitRow_decided {done : List PositionRow} {decision next : TakeProfitDecision}
    (hdone : Decided tiers previous fills done decision)
    (h : takeProfitRow .decimal tiers previous fills decision row = .ok next) :
    Decided tiers previous fills (done ++ [row]) next := by
  unfold takeProfitRow at h
  cases hadvanced : advancedCycle .decimal tiers previous fills row with
  | none =>
    rw [hadvanced] at h
    cases h
    intro id cycle hcycle
    obtain ⟨old, hold, tier, hrest⟩ := hdone id cycle hcycle
    exact ⟨old, List.mem_append_left _ hold, tier, hrest⟩
  | some advanced =>
    rw [hadvanced] at h
    simp only [bind_ok_iff, found_ok_iff, require_ok_iff, pure_ok_iff, exists_const] at h
    obtain ⟨tier, htier, -, rfl⟩ := h
    intro id cycle hcycle
    dsimp only at hcycle ⊢
    rw [OrderedMap.lookup_set] at hcycle ⊢
    by_cases hid : id = row.instrument
    · rw [if_pos hid] at hcycle ⊢
      cases hcycle
      exact ⟨row, by simp, tier, hid.symm, hadvanced, htier, rfl, by simp⟩
    · rw [if_neg hid] at hcycle ⊢
      obtain ⟨old, hold, oldTier, hinstrument, hrow, hindex, hlimit, -⟩ := hdone id cycle hcycle
      exact ⟨old, List.mem_append_left _ hold, oldTier, hinstrument, hrow, hindex, hlimit, by simp⟩

lemma rows_decided {done : List PositionRow} {decision next : TakeProfitDecision}
    (hdone : Decided tiers previous fills done decision)
    (h : rows.foldlM (takeProfitRow .decimal tiers previous fills) decision = .ok next) :
    Decided tiers previous fills (done ++ rows) next := by
  induction rows generalizing done decision with
  | nil =>
    rw [List.foldlM_nil, pure_ok_iff] at h
    subst h
    rwa [List.append_nil]
  | cons row rows ih =>
    rw [List.foldlM_cons, bind_ok_iff] at h
    obtain ⟨middle, hstep, h⟩ := h
    have hrest := ih (takeProfitRow_decided hdone hstep) h
    rwa [List.append_assoc, List.singleton_append] at hrest

/-- Ended cycles only add observations. -/
lemma ended_decided {entries : List (Sigma fun _ : InstrumentId => TakeProfitCycle)}
    {decision next : TakeProfitDecision} (hdone : Decided tiers previous fills rows decision)
    (h : entries.foldlM (endedCycle .decimal tiers fills) decision = .ok next) :
    Decided tiers previous fills rows next := by
  induction entries generalizing decision with
  | nil =>
    rw [List.foldlM_nil, pure_ok_iff] at h
    exact h ▸ hdone
  | cons e entries ih =>
    rw [List.foldlM_cons, bind_ok_iff] at h
    obtain ⟨middle, hstep, h⟩ := h
    refine ih ?_ h
    unfold endedCycle at hstep
    split_ifs at hstep
    · cases hstep
      exact hdone
    · simp only [bind_ok_iff, found_ok_iff, pure_ok_iff] at hstep
      obtain ⟨tier, -, rfl⟩ := hstep
      intro id cycle hcycle
      obtain ⟨row, hrow, rowTier, hinstrument, hadvanced, hindex, hlimit, -⟩ :=
        hdone id cycle hcycle
      exact ⟨row, hrow, rowTier, hinstrument, hadvanced, hindex, hlimit, by simp⟩

lemma takeProfitDecision_decided {stored : Option TakeProfitState} {decision : TakeProfitDecision}
    (h : takeProfitDecision .decimal tiers rows stored fills = .ok decision) :
    Decided tiers (stored.getD ∅) fills rows decision := by
  unfold takeProfitDecision at h
  simp only [bind_ok_iff, require_ok_iff, exists_const] at h
  obtain ⟨_, -, -, held, hheld, hended⟩ := h
  have hempty : Decided tiers (stored.getD ∅) fills [] ⟨∅, ∅, []⟩ := by
    intro id cycle hcycle
    cases hcycle
  have hrows := rows_decided hempty hheld
  rw [List.nil_append] at hrows
  exact ended_decided hrows hended

/-- No more cycles than positions. -/
lemma Decided.length_le {decision : TakeProfitDecision}
    (h : Decided tiers previous fills rows decision) :
    decision.state.entries.length ≤ rows.length := by
  have hsubset : decision.state.keys ⊆ rows.map PositionRow.instrument := by
    intro id hid
    obtain ⟨cycle, hcycle⟩ := Option.isSome_iff_exists.mp
      (AList.lookup_isSome.mpr (AList.mem_keys.mpr hid))
    obtain ⟨row, hrow, -, hinstrument, -⟩ := h id cycle hcycle
    exact List.mem_map.mpr ⟨row, hrow, hinstrument⟩
  have hle := ((AList.keys_nodup decision.state).subperm hsubset).length_le
  rwa [List.length_map, AList.keys, List.keys, List.length_map] at hle

/-! ### Runs -/

variable {F S E : Type} {session : Session}

/-- A simulation with the decimal contexts of the source whose risk module takes profit. -/
structure TakesProfit (sim : Simulation F (S × TakeProfitState) E) (policy : TakeProfitPolicy)
    (modules : Modules S E) : Prop where
  rounding : sim.rounding = .decimal
  decides : sim.decide = takeProfitProgram .decimal policy modules
  priced : Priced sim.data

/-- Positions whose numbers fit: few shares, units with the exponents of the accounting context,
and no more positions than a stored state can follow. -/
structure Storable (positions : Positions) : Prop where
  few : FewShares positions
  context : ∀ id position, positions.lookup id = some position →
    InContext 34 6176 position.adjustedUnits
  size : positions.entries.length ≤ 3000

/-- No holding is worth `10 ^ 28` of its buy prices at an Open. -/
def Resolvable (data : MarketData) (costs : Costs) (session : Session) (positions : Positions) :
    Prop :=
  ∀ id position price, positions.lookup id = some position →
    data.executionPrices session id = some price →
      Rounding.decimal.ambient (position.adjustedUnits * price.adjustedOpen)
        < 10 ^ 28 * buyPrice .decimal costs price

/-- The states that a Strategy reaches from its initial cash, session after session, with any
number of restarts from its stored positions and decision state in between. -/
inductive Reached (sim : Simulation F (S × TakeProfitState) E) :
    StrategyState F (S × TakeProfitState) → Prop
  | start : Reached sim (initialState sim)
  | close {state next : StrategyState F (S × TakeProfitState)} {signal : Option Session}
      {reportIndex : ℤ} {session : Session} {record : SessionRecord F E} (h : Reached sim state)
      (hopen : Resolvable sim.data sim.costs session state.account.positions)
      (hrun : runSession sim signal reportIndex state session = .ok (next, record))
      (hclose : Storable next.account.positions) : Reached sim next
  | restart {state : StrategyState F (S × TakeProfitState)} {rows : List PositionRow}
      {last : DailyObservation F} (h : Reached sim state)
      (hrows : positionPayload state.account.positions = .ok rows)
      (hlast : state.lastDaily = some last) :
      Reached sim (restoreState rows last state.pendingTarget state.decisionState)

/-- The take-profit cycles of a decision state. -/
def storedCycles (state : StrategyState F (S × TakeProfitState)) : TakeProfitState :=
  (state.decisionState.map Prod.snd).getD ∅

/-- Every position is held and storable, and every cycle follows its holding under a limit. -/
structure Followed (policy : TakeProfitPolicy) (state : StrategyState F (S × TakeProfitState)) :
    Prop where
  held : AllHeld state.account.positions
  storable : Storable state.account.positions
  cycles : ∀ id cycle, (storedCycles state).lookup id = some cycle →
    ∃ position baseline executed, state.account.positions.lookup id = some position
      ∧ CycleTracked policy.tiers position cycle baseline executed
      ∧ ∃ target limit, state.pendingTarget = some target
        ∧ target.positionLimits.lookup id = some limit ∧ (limit : ℤ) ≤ position.executionShares
  size : (storedCycles state).entries.length ≤ 3000

/-! ### Positions of a session -/

variable {sim : Simulation F (S × TakeProfitState) E} {policy : TakeProfitPolicy}
  {modules : Modules S E} {state next : StrategyState F (S × TakeProfitState)}
  {signal : Option Session} {reportIndex : ℤ} {record : SessionRecord F E}

lemma closed_holding {data : MarketData} {positions : Positions} {id : InstrumentId}
    {closed : Position}
    (h : (closeMarked data session (agePositions positions)).lookup id = some closed) :
    ∃ position, positions.lookup id = some position
      ∧ closed.executionShares = position.executionShares
      ∧ closed.adjustedUnits = position.adjustedUnits
      ∧ closed.holdingCycleStartedSession = position.holdingCycleStartedSession
      ∧ closed.lastAdjustedPrice = position.lastAdjustedPrice := by
  obtain ⟨aged, price, haged, rfl⟩ := lookup_closeMarked h
  obtain ⟨position, hposition, rfl⟩ := lookup_agePositions haged
  exact ⟨position, hposition, rfl, rfl, rfl, rfl⟩

/-- What a Close shows to the decision program, and what it leaves behind. -/
lemma closeSession_decides {opened : OpenedSession} {traded : TradedSession F E}
    (h : closeSession sim session reportIndex opened traded state = .ok (next, record)) :
    ∃ account rows decision, positionPayload next.account.positions = .ok rows
      ∧ account.positions = rows
      ∧ sim.decide session reportIndex account traded.trading.journal.fills
          traded.trading.journal.rejections state.decisionState = .ok decision
      ∧ next.pendingTarget = decision.target ∧ next.decisionState = some decision.state
      ∧ next.account.positions
          = closeMarked sim.data session (agePositions traded.trading.account.positions) := by
  unfold closeSession at h
  simp only [bind_ok_iff, pure_ok_iff, require_ok_iff, exists_const, Prod.mk.injEq] at h
  obtain ⟨-, closed, hclosed, rows, hrows, decision, hdecision, rfl, -⟩ := h
  exact ⟨_, rows, decision, hrows, rfl, mapError_ok_iff.mp hdecision, rfl, rfl,
    (markClosePositions_ok hclosed).1⟩

lemma opened_valued (hdata : Priced sim.data) {account : Account} {opened : OpenedSession}
    (hheld : AllHeld account.positions)
    (hopen : openSession .decimal sim.data session account = .ok opened) :
    AllHeld opened.account.positions ∧ opened.Valued := by
  obtain ⟨-, rfl⟩ := openSession_ok hopen
  have hopened := @openMarked_held sim.data session hdata _ hheld
  refine ⟨hopened, fun id position h => (hopened id position h).shares,
    fun id position h => (hopened id position h).units.le, fun id position h => ?_⟩
  change 0 ≤ ((AList.lookup id (openMarked sim.data session account.positions)).map
    Position.lastAdjustedPrice).getD 0
  rw [h]
  exact (hopened id position h).mark

/-- At the Open a holding is worth its units at the adjusted price. -/
lemma opened_small {account : Account} {opened : OpenedSession} {id : InstrumentId}
    (hopen : openSession .decimal sim.data session account = .ok opened)
    (hresolvable : Resolvable sim.data sim.costs session account.positions)
    (position : Position) (price : ExecutionPrice)
    (hposition : opened.account.positions.lookup id = some position)
    (hprice : sim.data.executionPrices session id = some price) :
    holdingValue .decimal opened.marks id position
      < 10 ^ 28 * buyPrice .decimal sim.costs price := by
  obtain ⟨-, rfl⟩ := openSession_ok hopen
  have hmark : marksOf (openMarked sim.data session account.positions) id
      = position.lastAdjustedPrice := by
    unfold marksOf
    rw [hposition]
    rfl
  have hlookup := hposition
  unfold openMarked at hlookup
  rw [OrderedMap.lookup_filterMap, Option.bind_eq_some_iff] at hlookup
  obtain ⟨before, hbefore, hmarked⟩ := hlookup
  unfold openMark at hmarked
  rw [hprice] at hmarked
  obtain rfl := Option.some.inj hmarked
  have hsmall := hresolvable id before price hbefore hprice
  unfold holdingValue
  rw [Rounding.money_ambient]
  dsimp only at hmark ⊢
  rw [hmark]
  exact hsmall

/-- The positions of a session stay held, and a limited holding only moves down. -/
lemma runSession_moves (hsim : TakesProfit sim policy modules)
    (hheld : AllHeld state.account.positions) (hfew : FewShares state.account.positions)
    (hresolvable : Resolvable sim.data sim.costs session state.account.positions)
    (h : runSession sim signal reportIndex state session = .ok (next, record)) :
    ∃ traded : TradedSession F E, ∃ opened,
      closeSession sim session reportIndex opened traded state = .ok (next, record)
        ∧ AllHeld next.account.positions
        ∧ ∀ id position target limit, state.account.positions.lookup id = some position →
          state.pendingTarget = some target → target.positionLimits.lookup id = some limit →
          HoldingMove position (next.account.positions.lookup id)
            (soldQuantity traded.trading.journal.fills id) := by
  obtain ⟨opened, traded, hcheck, hopen, htraded, hclose⟩ := runSession_ok h
  obtain ⟨_, _, _, -, -, -, -, -, hpositions⟩ := closeSession_decides hclose
  rw [hsim.rounding] at hopen htraded
  obtain ⟨hopened, hvalued⟩ := opened_valued hsim.priced hheld hopen
  have hopenedPositions : opened.account.positions
      = openMarked sim.data session state.account.positions := by
    obtain ⟨-, rfl⟩ := openSession_ok hopen
    rfl
  have hclosed : ∀ closed id, next.account.positions.lookup id = some closed →
      ∃ old, traded.trading.account.positions.lookup id = some old
        ∧ closed.executionShares = old.executionShares
        ∧ closed.adjustedUnits = old.adjustedUnits
        ∧ closed.holdingCycleStartedSession = old.holdingCycleStartedSession
        ∧ closed.lastAdjustedPrice = old.lastAdjustedPrice := by
    intro closed id hlookup
    rw [hpositions] at hlookup
    exact closed_holding hlookup
  refine ⟨traded, opened, hclose, ?_, ?_⟩
  · have htradedHeld : AllHeld traded.trading.account.positions := by
      unfold executePending at htraded
      cases hpending : state.pendingTarget with
      | none =>
        rw [hpending] at htraded
        cases htraded
        exact hopened
      | some target =>
        rw [hpending] at htraded
        simp only [bind_ok_iff, require_ok_iff, exists_const] at htraded
        obtain ⟨-, -, htraded⟩ := htraded
        refine executeTarget_held hsim.priced htraded hopened ?_
        rw [hopenedPositions]
        exact openMarked_few hfew
    intro id closed hlookup
    obtain ⟨old, hold, hshares, hunits, -, hprice⟩ := hclosed closed id hlookup
    have hbefore := htradedHeld id old hold
    exact ⟨hshares ▸ hbefore.shares, hunits ▸ hbefore.units, hprice ▸ hbefore.mark⟩
  · intro id position target limit hposition hpending hlimit
    rw [hpending] at htraded hcheck
    unfold executePending at htraded
    simp only [bind_ok_iff, require_ok_iff, exists_const] at htraded
    obtain ⟨-, -, htraded⟩ := htraded
    have hentry : (⟨id, limit⟩ : Sigma fun _ : InstrumentId => ℕ) ∈ target.positionLimits.entries :=
      OrderedMap.lookup_eq_some_iff.mp hlimit
    have hnot := limited_notBought (hcheck target rfl) hopen hvalued htraded hentry
      fun position price hlookup hprice => opened_small hopen hresolvable position price hlookup hprice
    obtain ⟨habsent, hmoves⟩ := executeTarget_move htraded hnot
    have hmarked : ∀ closed, next.account.positions.lookup id = some closed →
        ∃ old, traded.trading.account.positions.lookup id = some old
          ∧ closed.executionShares = old.executionShares
          ∧ closed.adjustedUnits = old.adjustedUnits
          ∧ closed.holdingCycleStartedSession = old.holdingCycleStartedSession := by
      intro closed hlookup
      obtain ⟨old, hold, hshares, hunits, hstarted, -⟩ := hclosed closed id hlookup
      exact ⟨old, hold, hshares, hunits, hstarted⟩
    cases hopenedLookup : opened.account.positions.lookup id with
    | none =>
      refine (HoldingMove.gone _).mark fun closed hlookup => ?_
      obtain ⟨old, hold, -⟩ := hmarked closed hlookup
      rw [habsent hopenedLookup] at hold
      cases hold
    | some marked =>
      have hmove := (hmoves marked hopenedLookup).mark hmarked
      rw [hopenedPositions] at hopenedLookup
      obtain ⟨before, hbefore, hshares, hunits, hstarted⟩ := openMarked_holding hopenedLookup
      obtain rfl : position = before := Option.some.inj (hposition.symm.trans hbefore)
      exact hmove.of_same hshares hunits hstarted

/-! ### The state after a Close -/

lemma payload_rows {positions : Positions} {rows : List PositionRow}
    (h : positionPayload positions = .ok rows) :
    rows.length = positions.entries.length
      ∧ (∀ row ∈ rows, ∃ position, positions.lookup row.instrument = some position
        ∧ RowOf row position)
      ∧ ∀ id position, positions.lookup id = some position →
        ∃ row ∈ rows, row.instrument = id ∧ RowOf row position := by
  have hrows := map_restorePosition h
  have hperm := OrderedMap.sortEntries_perm positions.entries
  refine ⟨?_, fun row hrow => ?_, fun id position hposition => ?_⟩
  · rw [← hperm.length_eq, ← hrows, List.length_map]
  · have hmem : restorePosition row ∈ positions.entries := by
      rw [← hperm.mem_iff, ← hrows]
      exact List.mem_map_of_mem hrow
    exact ⟨_, OrderedMap.lookup_eq_some_iff.mpr hmem, rfl, rfl, rfl⟩
  · have hmem := OrderedMap.lookup_eq_some_iff.mp hposition
    rw [← hperm.mem_iff, ← hrows, List.mem_map] at hmem
    obtain ⟨row, hrow, heq⟩ := hmem
    unfold restorePosition at heq
    cases heq
    exact ⟨row, hrow, rfl, rfl, rfl, rfl⟩

/-- A limit of the decision is in force in the target of the Close, or a lower one. -/
lemma riskTarget_limited {session : Session} {proposal : Option PendingTarget}
    {others limits : PositionLimits} {cap : Option ℚ} (hcap : ∀ c ∈ cap, 0 ≤ c)
    {reasons : List String} (hreasons : reasons ≠ []) {id : InstrumentId} {maximum : ℕ}
    (hlimit : limits.lookup id = some maximum) :
    ∃ target limit, riskTarget session proposal (limits.entries.foldl tightenLimit others) cap hcap
        reasons = some target
      ∧ target.positionLimits.lookup id = some limit ∧ limit ≤ maximum := by
  have hrisk := lookup_foldl_tighten limits.nodupKeys others id
  have hentry : limits.entries.dlookup id = some maximum := hlimit
  rw [hentry] at hrisk
  have hmerged := lookup_mergeLimits proposal (limits.entries.foldl tightenLimit others) id
  rw [hrisk] at hmerged
  have hne : (limits.entries.foldl tightenLimit others).entries ≠ [] := by
    intro hnil
    have hmem := OrderedMap.lookup_eq_some_iff.mp hrisk
    rw [hnil] at hmem
    cases hmem
  unfold riskTarget
  rw [if_neg hreasons, dif_pos (.inl hne)]
  exact ⟨_, _, rfl, hmerged, (min_le_left _ _).trans (min_le_left _ _)⟩

/-- A cycle of a Close that has executed nothing yet. -/
def TakeProfitCycle.Fresh (cycle : TakeProfitCycle) (position : Position) : Prop :=
  quantityOf cycle.executedReductionUnits = 0
    ∧ quantityOf cycle.baselineAdjustedUnits = position.adjustedUnits

lemma CycleTracked.fresh (h : CycleTracked tiers position cycle baseline executed)
    (hbaseline : baseline = position.adjustedUnits) (hexecuted : executed = 0) :
    cycle.Fresh position := by
  unfold TakeProfitCycle.Fresh
  rw [h.executedText, h.baselineText, quantityOf_canonical h.executed_context,
    quantityOf_canonical h.baseline_context]
  exact ⟨hexecuted, hbaseline⟩

/-- How a cycle goes on from one Close to the next. -/
structure Progressed (position after : Position) (cycle later : TakeProfitCycle) : Prop where
  baseline : later.baselineAdjustedUnits = cycle.baselineAdjustedUnits
  baselineShares : later.baselineExecutionShares = cycle.baselineExecutionShares
  tier : cycle.highestTriggeredTier ≤ later.highestTriggeredTier
  units : after.adjustedUnits ≤ position.adjustedUnits
  shares : after.executionShares ≤ position.executionShares
  exact : ∀ k : ℤ, quantityOf cycle.baselineAdjustedUnits < 10 ^ (34 + k) →
    Aligned k (quantityOf cycle.baselineAdjustedUnits) → Aligned k position.adjustedUnits →
    Aligned k after.adjustedUnits →
    quantityOf cycle.executedReductionUnits + position.adjustedUnits
      = quantityOf cycle.baselineAdjustedUnits →
    quantityOf later.executedReductionUnits + after.adjustedUnits
      = quantityOf later.baselineAdjustedUnits

/-- A cycle whose holding was kept or reduced goes on. -/
lemma CycleTracked.continued (h : CycleTracked tiers position cycle baseline executed)
    (hheld : HeldPosition position) (hcontext : InContext 34 6176 position.adjustedUnits)
    (hrow : RowOf row after) (hheldAfter : HeldPosition after)
    (hafterContext : InContext 34 6176 after.adjustedUnits) {sold : Option ℕ}
    (hmove : HoldingMove position (some after) sold) (value : ℚ) :
    let later := continuedCycle .decimal cycle row sold (highestReached tiers value)
    (∃ executed', CycleTracked tiers after later baseline executed')
      ∧ Progressed position after cycle later := by
  dsimp only
  cases hmove with
  | kept hshares hunits hstarted =>
    refine ⟨⟨executed, h.kept hrow hshares hunits hstarted value⟩, rfl, rfl, le_max_left _ _,
      hunits.le, hshares.le, ?_⟩
    intro k _ _ _ _ hexact
    rw [hunits]
    exact hexact
  | reduced hpos hlt hremoved hshares hunits hstarted =>
    have hfew : position.executionShares < 10 ^ 13 := h.shares_le.trans_lt h.few
    obtain ⟨-, hle, -⟩ := reducedUnits_bounds hheld.units hpos hlt hfew hremoved
    rw [← hunits] at hle
    have hlater := h.reduced hheld hcontext hrow hafterContext hpos hlt hremoved hshares hunits
      hstarted value
    refine ⟨⟨_, hlater⟩, rfl, rfl, le_max_left _ _, hle, by omega, ?_⟩
    intro k hdigits hbaseline hbefore hafter hexact
    have hlaterBaseline := hlater.baselineText
    rw [hlater.executedText, quantityOf_canonical hlater.executed_context, hlaterBaseline,
      quantityOf_canonical h.baseline_context]
    rw [h.baselineText, quantityOf_canonical h.baseline_context] at hdigits hbaseline hexact
    rw [h.executedText, quantityOf_canonical h.executed_context] at hexact
    exact executedBy_exact hdigits hbaseline hbefore hafter hheldAfter.units.le hle h.units_le hexact

lemma positionLimit_le (tier : TakeProfitTier) (cycle : TakeProfitCycle)
    (hpos : 0 < row.executionShares) :
    (((positionLimit .decimal tier cycle row).toNat : ℕ) : ℤ) ≤ row.executionShares := by
  have hle : positionLimit .decimal tier cycle row ≤ row.executionShares := min_le_left _ _
  omega

/-- One session keeps every cycle on its holding. -/
lemma Followed.close (hsim : TakesProfit sim policy modules) (hstate : Followed policy state)
    (hresolvable : Resolvable sim.data sim.costs session state.account.positions)
    (hrun : runSession sim signal reportIndex state session = .ok (next, record))
    (hclose : Storable next.account.positions) :
    Followed policy next ∧ ∀ id later, (storedCycles next).lookup id = some later →
      ∃ after, next.account.positions.lookup id = some after
        ∧ ((storedCycles state).lookup id = none → later.Fresh after)
        ∧ ∀ cycle, (storedCycles state).lookup id = some cycle →
          ∃ position, state.account.positions.lookup id = some position
            ∧ Progressed position after cycle later := by
  obtain ⟨traded, opened, hclosed, hheld, hmoves⟩ :=
    runSession_moves hsim hstate.held hstate.storable.few hresolvable hrun
  obtain ⟨account, rows, decided, hrows, haccount, hdecides, htarget, hdecision, -⟩ :=
    closeSession_decides hclosed
  rw [hsim.decides] at hdecides
  unfold takeProfitProgram at hdecides
  simp only [bind_ok_iff, pure_ok_iff] at hdecides
  obtain ⟨others, -, decision, hprofit, rfl⟩ := hdecides
  rw [haccount] at hprofit
  have hcycles := takeProfitDecision_decided hprofit
  obtain ⟨hlength, hrowPosition, -⟩ := payload_rows hrows
  have hnextCycles : storedCycles next = decision.state := by
    unfold storedCycles
    rw [hdecision]
    rfl
  -- the cycle of a row continues the stored cycle of its holding, or begins
  have hstep : ∀ id later, decision.state.lookup id = some later →
      ∃ after baseline executed, next.account.positions.lookup id = some after
        ∧ CycleTracked policy.tiers after later baseline executed
        ∧ (∃ target limit, next.pendingTarget = some target
          ∧ target.positionLimits.lookup id = some limit ∧ (limit : ℤ) ≤ after.executionShares)
        ∧ ((storedCycles state).lookup id = none → later.Fresh after)
        ∧ ∀ cycle, (storedCycles state).lookup id = some cycle → ∃ position,
          state.account.positions.lookup id = some position
            ∧ Progressed position after cycle later := by
    intro id later hlater
    obtain ⟨row, hrow, tier, rfl, hadvanced, -, hlimit, hobservations⟩ := hcycles id later hlater
    obtain ⟨after, hafter, hrowOf⟩ := hrowPosition row hrow
    have hheldAfter := hheld _ _ hafter
    have hcontext := hclose.context _ _ hafter
    have htargetLimit : ∃ target limit, next.pendingTarget = some target
        ∧ target.positionLimits.lookup row.instrument = some limit
        ∧ (limit : ℤ) ≤ after.executionShares := by
      rw [htarget]
      obtain ⟨target, limit, hsome, hlookup, hle⟩ := @riskTarget_limited session others.proposal
        others.riskLimits decision.limits others.cap others.cap_nonneg
        (others.reasons ++ decision.observations.map (fun _ => "take_profit") ++ others.laterReasons)
        (by simp [hobservations]) _ _ hlimit
      refine ⟨target, limit, hsome, hlookup, ?_⟩
      have hmax := positionLimit_le tier later (hrowOf.shares ▸ hheldAfter.shares)
      rw [← hrowOf.shares]
      omega
    unfold advancedCycle at hadvanced
    dsimp only at hadvanced
    cases hstored : (storedCycles state).lookup row.instrument with
    | none =>
      have hnone : heldCycle (storedCycles state) row = none := by
        unfold heldCycle
        rw [hstored]
        rfl
      rw [← storedCycles, hnone] at hadvanced
      obtain ⟨reached, hreached, rfl⟩ := Option.map_eq_some_iff.mp hadvanced
      have hopenedCycle := tracked_opened hrowOf hheldAfter (hclose.few _ _ hafter) hcontext
        (highestReached_lt hreached)
      exact ⟨after, _, _, hafter, hopenedCycle, htargetLimit,
        fun _ => hopenedCycle.fresh rfl rfl, fun cycle hcycle => by cases hcycle⟩
    | some cycle =>
      obtain ⟨position, baseline, executed, hposition, htracked, target, limit, hpending, hlookup,
        -⟩ := hstate.cycles _ _ hstored
      have hmove := hmoves _ position target limit hposition hpending hlookup
      rw [hafter] at hmove
      have hheldCycle : heldCycle (storedCycles state) row = some cycle := by
        unfold heldCycle
        rw [hstored, Option.filter_some, if_pos]
        rw [decide_eq_true_eq, htracked.started, hrowOf.started, hmove.started]
      rw [← storedCycles, hheldCycle] at hadvanced
      obtain rfl := Option.some.inj hadvanced
      obtain ⟨⟨executed', hcontinued⟩, hprogress⟩ := htracked.continued (hstate.held _ _ hposition)
        (hstate.storable.context _ _ hposition) hrowOf hheldAfter hcontext hmove
        (holdingReturn .decimal row)
      refine ⟨after, baseline, executed', hafter, hcontinued, htargetLimit,
        fun hnone => (by cases hnone), fun cycle' hcycle' => ?_⟩
      cases hcycle'
      exact ⟨position, hposition, hprogress⟩
  refine ⟨⟨hheld, hclose, fun id later hlater => ?_, ?_⟩, fun id later hlater => ?_⟩
  · rw [hnextCycles] at hlater
    obtain ⟨after, baseline, executed, hafter, htracked, hlimit, -⟩ := hstep id later hlater
    exact ⟨after, baseline, executed, hafter, htracked, hlimit⟩
  · have hbound := hcycles.length_le
    have hsize := hclose.size
    rw [hnextCycles]
    omega
  · rw [hnextCycles] at hlater
    obtain ⟨after, _, _, hafter, -, -, hcontinues⟩ := hstep id later hlater
    exact ⟨after, hafter, hcontinues⟩

/-- The positions and the stored cycles are those of a restarted execution. -/
lemma Followed.restart (h : Followed policy state) {rows : List PositionRow}
    {last : DailyObservation F} (hrows : positionPayload state.account.positions = .ok rows) :
    Followed policy (restoreState rows last state.pendingTarget state.decisionState) := by
  have hlookup : ∀ id, (restorePositions rows).lookup id = state.account.positions.lookup id :=
    lookup_restorePositions hrows
  refine ⟨fun id position hposition => ?_, ⟨fun id position hposition => ?_,
    fun id position hposition => ?_, ?_⟩, fun id cycle hcycle => ?_, h.size⟩
  · exact h.held id position ((hlookup id).symm.trans hposition)
  · exact h.storable.few id position ((hlookup id).symm.trans hposition)
  · exact h.storable.context id position ((hlookup id).symm.trans hposition)
  · change (restorePositions rows).entries.length ≤ 3000
    rw [restorePositions_payload hrows, OrderedMap.entries_sorted,
      (OrderedMap.sortEntries_perm _).length_eq]
    exact h.storable.size
  · obtain ⟨position, baseline, executed, hposition, hrest⟩ := h.cycles id cycle hcycle
    exact ⟨position, baseline, executed, (hlookup id).trans hposition, hrest⟩

/-- Every reached state is followed. -/
theorem Reached.followed (hsim : TakesProfit sim policy modules) (h : Reached sim state) :
    Followed policy state := by
  induction h with
  | start =>
    refine ⟨fun _ _ hlookup => ?_, ⟨fun _ _ hlookup => ?_, fun _ _ hlookup => ?_, ?_⟩,
      fun _ _ hlookup => ?_, ?_⟩
    · cases hlookup
    · cases hlookup
    · cases hlookup
    · exact Nat.zero_le _
    · cases hlookup
    · exact Nat.zero_le _
  | close _ hopen hrun hclose ih => exact (ih.close hsim hopen hrun hclose).1
  | restart _ hrows _ ih => exact ih.restart hrows

/-! ### Main results -/

lemma forM_modelValidate {entries : List (Sigma fun _ : InstrumentId => TakeProfitCycle)}
    (h : ∀ e ∈ entries, e.2.modelValidate = .ok ()) :
    (entries.forM fun e => e.2.modelValidate) = .ok () := by
  induction entries with
  | nil => rfl
  | cons e entries ih =>
    unfold List.forM
    rw [h e List.mem_cons_self]
    exact ih fun e' he' => h e' (List.mem_cons_of_mem e he')

lemma Followed.validates (h : Followed policy state) :
    validateState (storedCycles state) = .ok () := by
  unfold validateState
  simp only [bind_ok_iff, require_ok_iff, exists_const]
  refine ⟨h.size, forM_modelValidate fun e he => ?_⟩
  obtain ⟨position, baseline, executed, hposition, htracked, -⟩ :=
    h.cycles e.1 e.2 (OrderedMap.lookup_eq_some_iff.mpr he)
  exact htracked.validates (h.held _ _ hposition) (h.storable.context _ _ hposition)
    policy.length_le

lemma Followed.continues (h : Followed policy state) {rows : List PositionRow}
    (hrows : positionPayload state.account.positions = .ok rows) :
    validateContinuation policy.tiers rows (storedCycles state) = .ok () := by
  obtain ⟨-, -, hrowOf⟩ := payload_rows hrows
  unfold validateContinuation
  rw [h.validates]
  simp only [bind_ok_iff, require_ok_iff]
  refine ⟨(), trivial, fun e he => ?_⟩
  obtain ⟨position, baseline, executed, hposition, htracked, -⟩ :=
    h.cycles e.1 e.2 (OrderedMap.lookup_eq_some_iff.mpr he)
  obtain ⟨row, hrow, hinstrument, hof⟩ := hrowOf e.1 position hposition
  refine ⟨row, hrow, hinstrument, htracked.tier, htracked.started.trans hof.started.symm,
    htracked.shares.trans hof.shares.symm, ?_⟩
  rw [htracked.last, hof.units]

/-- At every session boundary the stored take-profit state validates and matches the account: the
units of a cycle are positive and at most its baseline, what was executed is the rest of it up to
the digits that its sales lose, and its limit, no more than its shares, is in force. From one
Close to the next the tier of a cycle does not fall, and its units and shares do not rise. -/
theorem take_profit_cycles (hsim : TakesProfit sim policy modules) (h : Reached sim state) :
    validateState (storedCycles state) = .ok ()
      ∧ (∀ rows, positionPayload state.account.positions = .ok rows →
        validateContinuation policy.tiers rows (storedCycles state) = .ok ())
      ∧ (∀ id cycle, (storedCycles state).lookup id = some cycle →
        ∃ position, state.account.positions.lookup id = some position ∧
          let baseline := quantityOf cycle.baselineAdjustedUnits
          let executed := quantityOf cycle.executedReductionUnits
          let last := quantityOf cycle.lastAdjustedUnits
          last = position.adjustedUnits ∧ 0 < last ∧ last ≤ baseline
            ∧ 0 ≤ executed ∧ executed ≤ baseline
            ∧ |executed + last - baseline| ≤ digitsLost baseline cycle position.executionShares
            ∧ ∃ target limit, state.pendingTarget = some target
              ∧ target.positionLimits.lookup id = some limit
              ∧ (limit : ℤ) ≤ position.executionShares)
      ∧ ∀ session signal reportIndex next record,
        Resolvable sim.data sim.costs session state.account.positions →
        runSession sim signal reportIndex state session = .ok (next, record) →
        Storable next.account.positions →
        ∀ id later, (storedCycles next).lookup id = some later →
          ∃ after, next.account.positions.lookup id = some after
            ∧ ((storedCycles state).lookup id = none → later.Fresh after)
            ∧ ∀ cycle, (storedCycles state).lookup id = some cycle →
              ∃ position, state.account.positions.lookup id = some position
                ∧ Progressed position after cycle later := by
  have hfollowed := h.followed hsim
  refine ⟨hfollowed.validates, fun rows => hfollowed.continues, fun id cycle hcycle => ?_,
    fun session signal reportIndex next record hopen hrun hclose =>
      (hfollowed.close hsim hopen hrun hclose).2⟩
  obtain ⟨position, baseline, executed, hposition, htracked, hlimit⟩ :=
    hfollowed.cycles id cycle hcycle
  have hheld := hfollowed.held id position hposition
  have hcontext := hfollowed.storable.context id position hposition
  refine ⟨position, hposition, ?_⟩
  rw [htracked.baselineText, htracked.executedText, htracked.last,
    quantityOf_canonical htracked.baseline_context, quantityOf_canonical htracked.executed_context,
    quantityOf_canonical hcontext]
  exact ⟨rfl, hheld.units, htracked.units_le, htracked.executed_nonneg, htracked.executed_le,
    htracked.digits, hlimit⟩

/-! ### A rising stock -/

/-- A stock of the STAR board whose Close is the number of the session. -/
def risingMarket (adjusted : ℚ) (hadjusted : 0 ≤ adjusted) : MarketData where
  instruments _ := some ⟨.star, none⟩
  executionPrices _ _ := some ⟨1, adjusted, fun _ => hadjusted⟩
  tradingStates _ _ := some .normal
  priceLimits _ _ := some ⟨1000000, 0⟩
  closes session _ := some session

def twoTiers : TakeProfitPolicy where
  tiers := [⟨1 / 2, 99981 / 100000, by norm_num, by norm_num, by norm_num⟩,
    ⟨3 / 2, 999999 / 1000000, by norm_num, by norm_num, by norm_num⟩]
  length_le := by decide
  thresholds := by norm_num
  reductions := by norm_num

lemma uncapped_nonneg : ∀ cap ∈ (none : Option ℚ), 0 ≤ cap := by simp

/-- Everything into the stock after the first session. -/
def buyOnce : Modules Unit Unit := fun session _ _ _ _ _ =>
  .ok {
    state := ()
    proposal := if session = 1 then some (equalTarget 1 [1] nodup_first) else none
    riskLimits := ∅
    reasons := []
    cap := none
    cap_nonneg := uncapped_nonneg
    laterReasons := []
    diagnostics := []
    framework := none }

def risingSimulation (adjusted : ℚ) (hadjusted : 0 ≤ adjusted) (cash : ℚ) (hcash : 0 < cash) :
    Simulation ℚ (Unit × TakeProfitState) Unit where
  rounding := .decimal
  floats := rationalBinary64
  data := risingMarket adjusted hadjusted
  costs := sampleCosts 0
  initialCash := cash
  initialCash_pos := hcash
  decide := takeProfitProgram .decimal twoTiers buyOnce

/-- 1,100,001 shares of 100 / 107 units each. -/
def unevenSimulation : Simulation ℚ (Unit × TakeProfitState) Unit :=
  risingSimulation (107 / 100) (by norm_num) 1100001 (by norm_num)

/-- After sales to 209 shares and to one share, executed and last units miss the baseline in its
thirty-fourth digit. -/
theorem take_profit_cycles_digits :
    ∃ final records, runReport unevenSimulation 0 none [1, 2, 3, 4] (initialState unevenSimulation)
        = .ok (final, records)
      ∧ ∃ cycle ∈ (storedCycles final).lookup 1,
        quantityOf cycle.executedReductionUnits + quantityOf cycle.lastAdjustedUnits
          ≠ quantityOf cycle.baselineAdjustedUnits := by
  have hruns : ∃ run, runReport unevenSimulation 0 none [1, 2, 3, 4] (initialState unevenSimulation)
        = .ok run
      ∧ ∃ cycle ∈ (storedCycles run.1).lookup 1,
        quantityOf cycle.executedReductionUnits + quantityOf cycle.lastAdjustedUnits
          ≠ quantityOf cycle.baselineAdjustedUnits := by
    decide +kernel
  obtain ⟨run, hrun, hcycle⟩ := hruns
  exact ⟨run.1, run.2, hrun, hcycle⟩

lemma unitPrice_nonneg : (0 : ℚ) ≤ 1 := by norm_num

/-- A hundred thousand shares of one unit each. -/
def evenSimulation : Simulation ℚ (Unit × TakeProfitState) Unit :=
  risingSimulation 1 unitPrice_nonneg 100000 (by norm_num)

def evenFirst : Ran (runSession evenSimulation none 0 (initialState evenSimulation) 1) :=
  ran _ (by decide +kernel)

def evenSecond : Ran (runSession evenSimulation (some 1) 1 evenFirst.1.1 2) :=
  ran _ (by decide +kernel)

def evenThird : Ran (runSession evenSimulation (some 2) 2 evenSecond.1.1 3) :=
  ran _ (by decide +kernel)

lemma evenSimulation_takesProfit : TakesProfit evenSimulation twoTiers buyOnce where
  rounding := rfl
  decides := rfl
  priced := by
    intro session id price hprice
    obtain rfl : ⟨1, 1, fun _ => by norm_num⟩ = price := Option.some.inj hprice
    norm_num

/-- Holdings of whole units that the Opens of the samples, which are 1, do not make too large -/
def WholeUnits (positions : Positions) : Prop :=
  positions.entries.length ≤ 3000 ∧ ∀ e ∈ positions.entries,
    e.2.executionShares < 10 ^ 13 ∧ e.2.adjustedUnits.den = 1 ∧ |e.2.adjustedUnits.num| < 10 ^ 34
      ∧ Rounding.decimal.ambient (e.2.adjustedUnits * 1)
        < 10 ^ 28 * buyPrice .decimal evenSimulation.costs ⟨1, 1, fun _ => unitPrice_nonneg⟩

instance (positions : Positions) : Decidable (WholeUnits positions) :=
  inferInstanceAs (Decidable (_ ∧ _))

/-- Whole units are numbers of the accounting context. -/
lemma WholeUnits.storable {positions : Positions} (h : WholeUnits positions) :
    Storable positions where
  few id position hposition := (h.2 _ (OrderedMap.lookup_eq_some_iff.mp hposition)).1
  context id position hposition := by
    obtain ⟨-, hden, hnum, -⟩ := h.2 _ (OrderedMap.lookup_eq_some_iff.mp hposition)
    refine ⟨position.adjustedUnits.num, 0, hnum, by norm_num, ?_⟩
    rw [zpow_zero, mul_one]
    exact (Rat.coe_int_num_of_den_eq_one hden).symm
  size := h.1

lemma WholeUnits.resolvable {positions : Positions} (h : WholeUnits positions)
    (session : Session) :
    Resolvable evenSimulation.data evenSimulation.costs session positions := by
  intro id position price hposition hprice
  obtain rfl : ⟨1, 1, fun _ => unitPrice_nonneg⟩ = price := Option.some.inj hprice
  obtain ⟨-, -, -, hvalue⟩ := h.2 ⟨id, position⟩ (OrderedMap.lookup_eq_some_iff.mp hposition)
  exact hvalue

/-- The cycle of a hundred thousand shares goes on over the sale that leaves 19 of them. -/
theorem take_profit_cycles_even :
    ∃ position after cycle later,
      evenSecond.1.1.account.positions.lookup 1 = some position
        ∧ (storedCycles evenSecond.1.1).lookup 1 = some cycle
        ∧ evenThird.1.1.account.positions.lookup 1 = some after
        ∧ (storedCycles evenThird.1.1).lookup 1 = some later
        ∧ Progressed position after cycle later
        ∧ position.executionShares = 100000 ∧ after.executionShares = 19 := by
  -- one evaluation for all that the run is asked for
  obtain ⟨hstart, hfirst, hsecond, hthird, ⟨before, hbefore, hheld⟩, ⟨left, hleft, hsold⟩, hcycle,
      hlater⟩ :
      WholeUnits (initialState evenSimulation).account.positions
        ∧ WholeUnits evenFirst.1.1.account.positions
        ∧ WholeUnits evenSecond.1.1.account.positions
        ∧ WholeUnits evenThird.1.1.account.positions
        ∧ (∃ position ∈ evenSecond.1.1.account.positions.lookup 1,
          position.executionShares = 100000)
        ∧ (∃ after ∈ evenThird.1.1.account.positions.lookup 1, after.executionShares = 19)
        ∧ ((storedCycles evenSecond.1.1).lookup 1).isSome = true
        ∧ ((storedCycles evenThird.1.1).lookup 1).isSome = true := by
    decide +kernel
  have hreached : Reached evenSimulation evenSecond.1.1 :=
    .close (.close .start (hstart.resolvable 1) evenFirst.pair hfirst.storable)
      (hfirst.resolvable 2) evenSecond.pair hsecond.storable
  obtain ⟨cycle, hcycle⟩ := Option.isSome_iff_exists.mp hcycle
  obtain ⟨later, hlater⟩ := Option.isSome_iff_exists.mp hlater
  obtain ⟨-, -, -, hprogress⟩ := take_profit_cycles evenSimulation_takesProfit hreached
  obtain ⟨after, hafter, -, hcontinued⟩ := hprogress 3 (some 2) 2 _ _ (hsecond.resolvable 3)
    evenThird.pair hthird.storable 1 later hlater
  obtain ⟨position, hposition, hprogressed⟩ := hcontinued cycle hcycle
  obtain rfl := Option.some.inj (hposition.symm.trans hbefore)
  obtain rfl := Option.some.inj (hafter.symm.trans hleft)
  exact ⟨position, after, cycle, later, hposition, hcycle, hafter, hlater, hprogressed, hheld,
    hsold⟩

end ThesisTrace.Risk
