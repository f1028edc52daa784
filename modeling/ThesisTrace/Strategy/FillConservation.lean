import ThesisTrace.Strategy.ChildOrders
import ThesisTrace.Strategy.SessionExecution

/-!
# Fills conserve their order

The changes that an order makes to the account are allocated to its fills by cumulative shares,
the last fill taking what is left. Up to the roundings of the accounting context, which are
named here one by one, the fills add up to the change of the account.
-/

namespace ThesisTrace.Strategy
open Transaction DecimalContext

variable {R : Rounding} {data : MarketData} {costs : Costs}

/-! ### Roundings -/

/-- What the accounting context adds to an amount. -/
def roundingOf (R : Rounding) (x : ℚ) : ℚ :=
  R.accounting x - x

lemma accounting_eq (x : ℚ) : R.accounting x = x + roundingOf R x := by
  unfold roundingOf
  ring

/-- The roundings of the differences and remainders of an allocation, and, against them, those
of the running net total. -/
def allocationRounding (R : Rounding) (deltas : Deltas) (total : ℕ) :
    Deltas → ℚ → List ChildCost → Deltas
  | _, _, [] => ⟨0, 0, 0⟩
  | prior, cumulativeNet, child :: rest =>
    let cumulativeQuantity := child.firstShare + child.quantity
    let cumulative := deltas.prorate R cumulativeQuantity total
    let netDelta :=
      if cumulativeQuantity = total then R.accounting (deltas.net - cumulativeNet)
      else R.accounting (R.accounting (cumulative.gross - prior.gross) - child.cost)
    let remaining := allocationRounding R deltas total cumulative
      (R.accounting (cumulativeNet + netDelta)) rest
    { gross := roundingOf R (cumulative.gross - prior.gross) + remaining.gross
      net :=
        if cumulativeQuantity = total then roundingOf R (deltas.net - cumulativeNet)
        else remaining.net - roundingOf R (cumulativeNet + netDelta)
      units := roundingOf R (cumulative.units - prior.units) + remaining.units }

/-- The roundings of the running total cost, in the default context. -/
def costRounding (R : Rounding) : ℚ → List ChildCost → ℚ
  | _, [] => 0
  | total, child :: rest =>
    let next := R.money (R.ambient (total + child.cost))
    (next - (total + child.cost)) + costRounding R next rest

/-! ### Sums over the fills -/

lemma prorate_total (deltas : Deltas) (total : ℕ) : deltas.prorate R total total = deltas :=
  if_pos rfl

/-- The children of an order, from share `firstShare` to its total. -/
def Covers (total firstShare : ℕ) (quantities : List ℕ) : Prop :=
  (∀ quantity ∈ quantities, 0 < quantity) ∧ firstShare + quantities.sum = total

lemma Covers.tail {total firstShare quantity : ℕ} {quantities : List ℕ}
    (h : Covers total firstShare (quantity :: quantities)) :
    Covers total (firstShare + quantity) quantities :=
  ⟨fun q hq => h.1 q (List.mem_cons_of_mem quantity hq), by
    have hsum := h.2
    rw [List.sum_cons] at hsum
    omega⟩

lemma Covers.last_iff {total firstShare quantity : ℕ} {quantities : List ℕ}
    (h : Covers total firstShare (quantity :: quantities)) :
    firstShare + quantity = total ↔ quantities = [] := by
  obtain ⟨hpos, hsum⟩ := h.tail
  cases quantities with
  | nil => simpa using hsum
  | cons q rest =>
    have hq := hpos q List.mem_cons_self
    rw [List.sum_cons] at hsum
    simp only [reduceCtorEq, iff_false]
    omega

/-- Gross cash and units of the fills telescope, up to the roundings of the differences. -/
lemma allocateFills_gross_units {terms : FillTerms} {side : Side} {executionPrice : ℚ}
    {quantities : List ℕ} (firstShare : ℕ) (prior : Deltas) (net : ℚ) (hne : quantities ≠ [])
    (hcovers : Covers terms.totalQuantity firstShare quantities) :
    let children := childCosts R costs side executionPrice firstShare quantities
    let fills := allocateFills R terms prior net children
    let rounding := allocationRounding R terms.deltas terms.totalQuantity prior net children
    (fills.map FillEvent.grossCashDelta).sum = terms.deltas.gross - prior.gross + rounding.gross
      ∧ (fills.map FillEvent.adjustedUnitsDelta).sum
        = terms.deltas.units - prior.units + rounding.units := by
  induction quantities generalizing firstShare prior net with
  | nil => exact absurd rfl hne
  | cons quantity quantities ih =>
    dsimp only
    unfold childCosts
    dsimp only
    unfold allocateFills allocationRounding
    simp only [List.map_cons, List.sum_cons]
    by_cases hlast : quantities = []
    · subst hlast
      rw [hcovers.last_iff.mpr rfl, prorate_total]
      simp only [childCosts, allocateFills, allocationRounding, List.map_nil, List.sum_nil,
        accounting_eq (R := R) (terms.deltas.gross - prior.gross),
        accounting_eq (R := R) (terms.deltas.units - prior.units), add_zero, and_self]
    · have hrest := fun net => ih (firstShare + quantity)
        (terms.deltas.prorate R (firstShare + quantity) terms.totalQuantity) net hlast
        hcovers.tail
      rw [(hrest _).1, (hrest _).2]
      generalize terms.deltas.prorate R (firstShare + quantity) terms.totalQuantity = cumulative
      rw [accounting_eq (cumulative.gross - prior.gross),
        accounting_eq (cumulative.units - prior.units)]
      constructor <;> ring

/-- Net cash of the fills adds up to the net change, as the last fill takes what the running
total leaves of it. -/
lemma allocateFills_net {terms : FillTerms} {side : Side} {executionPrice : ℚ}
    {quantities : List ℕ} (firstShare : ℕ) (prior : Deltas) (net : ℚ) (hne : quantities ≠ [])
    (hcovers : Covers terms.totalQuantity firstShare quantities) :
    let children := childCosts R costs side executionPrice firstShare quantities
    let fills := allocateFills R terms prior net children
    let rounding := allocationRounding R terms.deltas terms.totalQuantity prior net children
    (fills.map FillEvent.netCashDelta).sum = terms.deltas.net - net + rounding.net := by
  induction quantities generalizing firstShare prior net with
  | nil => exact absurd rfl hne
  | cons quantity quantities ih =>
    dsimp only
    unfold childCosts
    dsimp only
    unfold allocateFills allocationRounding
    simp only [List.map_cons, List.sum_cons]
    by_cases hlast : quantities = []
    · subst hlast
      simp only [hcovers.last_iff.mpr rfl, if_true, childCosts, allocateFills, List.map_nil,
        List.sum_nil, add_zero]
      exact accounting_eq _
    · have hnotLast : ¬firstShare + quantity = terms.totalQuantity := fun h =>
        hlast (hcovers.last_iff.mp h)
      simp only [if_neg hnotLast]
      have hrest := fun prior net => ih (firstShare + quantity) prior net hlast hcovers.tail
      rw [hrest]
      generalize R.accounting (R.accounting _ - _) = netDelta
      rw [accounting_eq (net + netDelta)]
      ring

lemma allocateFills_shares {terms : FillTerms} {side : Side} {executionPrice : ℚ}
    {quantities : List ℕ} (firstShare : ℕ) (prior : Deltas) (net : ℚ) :
    ((allocateFills R terms prior net
      (childCosts R costs side executionPrice firstShare quantities)).map
        FillEvent.executionSharesDelta).sum =
      match terms.order.side with
      | .buy => (quantities.sum : ℤ)
      | .sell => -(quantities.sum : ℤ) := by
  induction quantities generalizing firstShare prior net with
  | nil => cases terms.order.side <;> rfl
  | cons quantity quantities ih =>
    unfold childCosts
    dsimp only
    unfold allocateFills
    rw [List.map_cons, List.sum_cons, ih, List.sum_cons]
    cases terms.order.side <;> push_cast <;> ring

lemma allocateFills_costs {terms : FillTerms} (children : List ChildCost) (prior : Deltas)
    (net : ℚ) : (allocateFills R terms prior net children).map FillEvent.cost =
      children.map ChildCost.cost := by
  induction children generalizing prior net with
  | nil => rfl
  | cons child children ih =>
    unfold allocateFills
    rw [List.map_cons, List.map_cons, ih]

lemma totalChildCost_eq_sum (children : List ChildCost) (total : ℚ) :
    children.foldl (fun total child => R.money (R.ambient (total + child.cost))) total =
      total + (children.map ChildCost.cost).sum + costRounding R total children := by
  induction children generalizing total with
  | nil => simp [costRounding]
  | cons child children ih =>
    rw [List.foldl_cons, ih, costRounding, List.map_cons, List.sum_cons]
    ring

/-! ### The fill event -/

/-- The sign that the event model gives a side. -/
def Side.direction : Side → ℤ
  | .buy => 1
  | .sell => -1

/-- `StrategyFillEvent.quantity_and_settlement_direction`. -/
def FillEvent.validate (R : Rounding) (fill : FillEvent) : Except String Unit :=
  let side := fill.childOrder.side
  let direction : ℚ := side.direction
  if fill.executionSharesDelta ≠ side.direction * fill.childOrder.quantity then
    .error "Fill execution share delta differs from its direction"
  else if fill.rawOpen ≤ 0 ∨ fill.executionPrice ≤ 0 ∨ fill.adjustedOpen ≤ 0
      ∨ fill.rawNotional ≤ 0 ∨ fill.researchSettlement ≤ 0 ∨ fill.cost < 0 then
    .error "Fill amounts are invalid"
  else if fill.commission < 0 ∨ fill.stampDuty < 0 ∨ fill.transferFee < 0
      ∨ FeeParts.total R ⟨fill.commission, fill.stampDuty, fill.transferFee⟩ ≠ fill.cost then
    .error "Fill fee components differ from its total cost"
  else if R.accounting (fill.executionPrice - fill.rawOpen) ≠ fill.priceSlippage
      ∨ direction * fill.priceSlippage < 0 then
    .error "Fill price slippage differs from its execution direction"
  else if side = .buy ∧ fill.stampDuty ≠ 0 then
    .error "Buy fills cannot charge sell-side stamp duty"
  else if fill.grossCashDelta ≠ -direction * fill.researchSettlement then
    .error "Fill settlement differs from gross cash mutation"
  else if direction * fill.adjustedUnitsDelta ≤ 0 then
    .error "Fill holding mutation differs from its direction"
  else .ok ()

/-- The conditions under which the event model accepts a fill. -/
lemma FillEvent.validate_ok {fill : FillEvent}
    (hshares : fill.executionSharesDelta =
      fill.childOrder.side.direction * fill.childOrder.quantity)
    (hamounts : 0 < fill.rawOpen ∧ 0 < fill.executionPrice ∧ 0 < fill.adjustedOpen
      ∧ 0 < fill.rawNotional ∧ 0 < fill.researchSettlement ∧ 0 ≤ fill.cost)
    (hfees : 0 ≤ fill.commission ∧ 0 ≤ fill.stampDuty ∧ 0 ≤ fill.transferFee
      ∧ FeeParts.total R ⟨fill.commission, fill.stampDuty, fill.transferFee⟩ = fill.cost)
    (hslippage : R.accounting (fill.executionPrice - fill.rawOpen) = fill.priceSlippage
      ∧ 0 ≤ (fill.childOrder.side.direction : ℚ) * fill.priceSlippage)
    (hstamp : fill.childOrder.side = .buy → fill.stampDuty = 0)
    (hcash : fill.grossCashDelta =
      -(fill.childOrder.side.direction : ℚ) * fill.researchSettlement)
    (hunits : 0 < (fill.childOrder.side.direction : ℚ) * fill.adjustedUnitsDelta) :
    fill.validate R = .ok () := by
  obtain ⟨hraw, hexecution, hadjusted, hnotional, hsettlement, hcost⟩ := hamounts
  obtain ⟨hcommission, hstampDuty, htransfer, htotal⟩ := hfees
  have hnoAmount : ¬(fill.rawOpen ≤ 0 ∨ fill.executionPrice ≤ 0 ∨ fill.adjustedOpen ≤ 0
      ∨ fill.rawNotional ≤ 0 ∨ fill.researchSettlement ≤ 0 ∨ fill.cost < 0) := by
    simp only [not_or, not_le, not_lt]
    exact ⟨hraw, hexecution, hadjusted, hnotional, hsettlement, hcost⟩
  have hnoFee : ¬(fill.commission < 0 ∨ fill.stampDuty < 0 ∨ fill.transferFee < 0
      ∨ FeeParts.total R ⟨fill.commission, fill.stampDuty, fill.transferFee⟩ ≠ fill.cost) := by
    simp only [not_or, not_lt, not_not]
    exact ⟨hcommission, hstampDuty, htransfer, htotal⟩
  have hnoSlippage : ¬(R.accounting (fill.executionPrice - fill.rawOpen) ≠ fill.priceSlippage
      ∨ (fill.childOrder.side.direction : ℚ) * fill.priceSlippage < 0) := by
    simp only [not_or, not_lt, not_not]
    exact hslippage
  have hnoStamp : ¬(fill.childOrder.side = .buy ∧ fill.stampDuty ≠ 0) := fun h => h.2 (hstamp h.1)
  unfold FillEvent.validate
  dsimp only
  rw [if_neg (not_not.mpr hshares), if_neg hnoAmount, if_neg hnoFee, if_neg hnoSlippage,
    if_neg hnoStamp, if_neg (not_not.mpr hcash), if_neg (not_le.mpr hunits)]

/-! ### Prorated amounts -/

lemma decimal_accounting_le {x : ℚ} (h : 0 ≤ x) :
    Rounding.decimal.accounting x ≤ x * (1 + 1 / 10 ^ 33) := by
  have hround := @roundTo_le_add 34 x (by decide) h
  calc Rounding.decimal.accounting x ≤ x + x / 10 ^ 33 := hround
    _ = x * (1 + 1 / 10 ^ 33) := by ring

lemma le_decimal_accounting {x : ℚ} (h : 0 ≤ x) :
    x * (1 - 1 / 10 ^ 33) ≤ Rounding.decimal.accounting x := by
  have hround := @sub_le_roundTo 34 x (by decide) h
  calc x * (1 - 1 / 10 ^ 33) = x - x / 10 ^ 33 := by ring
    _ ≤ Rounding.decimal.accounting x := hround

lemma decimal_accounting_pos {x : ℚ} (h : 0 < x) : 0 < Rounding.decimal.accounting x :=
  roundTo_pos (by decide) h

lemma decimal_accounting_neg (x : ℚ) :
    Rounding.decimal.accounting (-x) = -Rounding.decimal.accounting x :=
  roundTo_neg 34 x

/-- One component of `Deltas.prorate`. -/
def prorated (R : Rounding) (amount : ℚ) (cumulative total : ℕ) : ℚ :=
  if cumulative = total then amount
  else R.accounting (R.accounting (amount * cumulative) / total)

lemma prorate_gross (deltas : Deltas) (cumulative total : ℕ) :
    (deltas.prorate R cumulative total).gross = prorated R deltas.gross cumulative total := by
  unfold Deltas.prorate prorated
  split_ifs <;> rfl

lemma prorate_units (deltas : Deltas) (cumulative total : ℕ) :
    (deltas.prorate R cumulative total).units = prorated R deltas.units cumulative total := by
  unfold Deltas.prorate prorated
  split_ifs <;> rfl

lemma prorated_zero (amount : ℚ) {total : ℕ} (htotal : 0 < total) :
    prorated .decimal amount 0 total = 0 := by
  have hzero : Rounding.decimal.accounting 0 = 0 := DecimalContext.roundTo_zero 34
  rw [prorated, if_neg htotal.ne, Nat.cast_zero, mul_zero, hzero, zero_div, hzero]

lemma prorated_neg (amount : ℚ) (cumulative total : ℕ) :
    prorated .decimal (-amount) cumulative total = -prorated .decimal amount cumulative total := by
  unfold prorated
  split_ifs
  · rfl
  · rw [neg_mul, decimal_accounting_neg, neg_div, decimal_accounting_neg]

/-- The prorated part of an amount is within two roundings of its exact share. -/
lemma prorated_bounds {amount : ℚ} (h : 0 < amount) {cumulative total : ℕ} (htotal : 0 < total) :
    amount * cumulative / total * (1 - 1 / 10 ^ 33) ^ 2 ≤ prorated .decimal amount cumulative total
      ∧ prorated .decimal amount cumulative total
        ≤ amount * cumulative / total * (1 + 1 / 10 ^ 33) ^ 2 := by
  have htotalQ : (0 : ℚ) < total := by exact_mod_cast htotal
  have hshare : 0 ≤ amount * cumulative := mul_nonneg h.le (Nat.cast_nonneg _)
  have hquotient : 0 ≤ amount * cumulative / total := div_nonneg hshare htotalQ.le
  unfold prorated
  split_ifs with heq
  · have hwhole : amount * cumulative / total = amount := by
      rw [heq, mul_div_assoc, div_self htotalQ.ne', mul_one]
    rw [hwhole]
    constructor
    · exact mul_le_of_le_one_right h.le (by norm_num)
    · exact le_mul_of_one_le_right h.le (by norm_num)
  · have hinner : 0 ≤ Rounding.decimal.accounting (amount * cumulative) / total :=
      div_nonneg (Rounding.decimal.accounting_nonneg hshare) htotalQ.le
    constructor
    · calc amount * cumulative / total * (1 - 1 / 10 ^ 33) ^ 2
          = amount * cumulative * (1 - 1 / 10 ^ 33) / total * (1 - 1 / 10 ^ 33) := by ring
        _ ≤ Rounding.decimal.accounting (amount * cumulative) / total * (1 - 1 / 10 ^ 33) := by
            refine mul_le_mul_of_nonneg_right ?_ (by norm_num)
            exact div_le_div_of_nonneg_right (le_decimal_accounting hshare) htotalQ.le
        _ ≤ _ := le_decimal_accounting hinner
    · calc Rounding.decimal.accounting (Rounding.decimal.accounting (amount * cumulative) / total)
          ≤ Rounding.decimal.accounting (amount * cumulative) / total * (1 + 1 / 10 ^ 33) :=
            decimal_accounting_le hinner
        _ ≤ amount * cumulative * (1 + 1 / 10 ^ 33) / total * (1 + 1 / 10 ^ 33) := by
            refine mul_le_mul_of_nonneg_right ?_ (by norm_num)
            exact div_le_div_of_nonneg_right (decimal_accounting_le hshare) htotalQ.le
        _ = _ := by ring

/-- More shares account for more of an amount: one share in `10 ^ 30` outweighs the roundings. -/
lemma prorated_lt {amount : ℚ} (h : 0 < amount) {cumulative next total : ℕ}
    (hlt : cumulative < next) (hle : next ≤ total) (htotal : total < 10 ^ 30) :
    prorated .decimal amount cumulative total < prorated .decimal amount next total := by
  have hpos : 0 < total := by omega
  have htotalQ : (0 : ℚ) < total := by exact_mod_cast hpos
  have hunit : 0 < amount / total := div_pos h htotalQ
  have hstep : (cumulative : ℚ) + 1 ≤ next := by exact_mod_cast hlt
  have hbound : (next : ℚ) < 10 ^ 30 := by
    have hnext : next < 10 ^ 30 := by omega
    exact_mod_cast hnext
  have hcumulative : (0 : ℚ) ≤ cumulative := Nat.cast_nonneg _
  have hroundings : (cumulative : ℚ) * (1 + 1 / 10 ^ 33) ^ 2 < next * (1 - 1 / 10 ^ 33) ^ 2 := by
    linarith
  calc prorated .decimal amount cumulative total
      ≤ amount * cumulative / total * (1 + 1 / 10 ^ 33) ^ 2 := (prorated_bounds h hpos).2
    _ = amount / total * (cumulative * (1 + 1 / 10 ^ 33) ^ 2) := by ring
    _ < amount / total * (next * (1 - 1 / 10 ^ 33) ^ 2) := mul_lt_mul_of_pos_left hroundings hunit
    _ = amount * next / total * (1 - 1 / 10 ^ 33) ^ 2 := by ring
    _ ≤ prorated .decimal amount next total := (prorated_bounds h hpos).1

/-- Consecutive prorated amounts differ in the direction of the whole amount. -/
lemma prorated_step {amount : ℚ} {cumulative next total : ℕ} (hlt : cumulative < next)
    (hle : next ≤ total) (htotal : total < 10 ^ 30) :
    (0 < amount → 0 < Rounding.decimal.accounting
        (prorated .decimal amount next total - prorated .decimal amount cumulative total))
      ∧ (amount < 0 → Rounding.decimal.accounting
        (prorated .decimal amount next total - prorated .decimal amount cumulative total) < 0) := by
  have hpositive : ∀ amount, 0 < amount → 0 < Rounding.decimal.accounting
      (prorated .decimal amount next total - prorated .decimal amount cumulative total) :=
    fun amount hpos => decimal_accounting_pos (sub_pos.mpr (prorated_lt hpos hlt hle htotal))
  refine ⟨hpositive amount, fun hneg => ?_⟩
  have hflipped := hpositive (-amount) (neg_pos.mpr hneg)
  rw [prorated_neg, prorated_neg, neg_sub_neg, ← neg_sub, decimal_accounting_neg] at hflipped
  exact neg_pos.mp hflipped

/-! ### Execution prices -/

lemma executionPriceFactor_bounds :
    1 ≤ executionPriceFactor .decimal .buy costs
      ∧ 0 < executionPriceFactor .decimal .sell costs
      ∧ executionPriceFactor .decimal .sell costs ≤ 1 := by
  have hbase : Rounding.decimal.accounting 10000 = 10000 :=
    roundTo_of_representable ⟨10000, 0, by norm_num, by norm_num⟩
  have hone : Rounding.decimal.accounting 1 = 1 :=
    roundTo_of_representable ⟨1, 0, by norm_num, by norm_num⟩
  have hslippage := costs.slippageBps_nonneg
  have hbelow := costs.slippageBps_lt
  refine ⟨?_, ?_, ?_⟩
  · have hsum := Rounding.decimal.accounting_mono (le_add_of_nonneg_right hslippage :
      (10000 : ℚ) ≤ 10000 + costs.slippageBps)
    rw [hbase] at hsum
    have hquotient : 1 ≤ Rounding.decimal.accounting (10000 + costs.slippageBps) / 10000 := by
      rw [le_div_iff₀ (by norm_num)]
      linarith
    have hratio := Rounding.decimal.accounting_mono hquotient
    rwa [hone] at hratio
  · exact decimal_accounting_pos (div_pos (decimal_accounting_pos (sub_pos.mpr hbelow))
      (by norm_num))
  · have hsum := Rounding.decimal.accounting_mono (sub_le_self (10000 : ℚ) hslippage)
    rw [hbase] at hsum
    have hquotient : Rounding.decimal.accounting (10000 - costs.slippageBps) / 10000 ≤ 1 := by
      rw [div_le_iff₀ (by norm_num)]
      linarith
    have hratio := Rounding.decimal.accounting_mono hquotient
    rwa [hone] at hratio

/-- The execution price of a side: positive, and on the costly side of the raw Open. -/
structure Slipped (side : Side) (rawOpen executionPrice : ℚ) : Prop where
  positive : 0 < executionPrice
  costly : 0 ≤ (side.direction : ℚ) * (executionPrice - rawOpen)

lemma slipped_executionPrice {side : Side} {rawOpen : ℚ} (hpos : 0 < rawOpen)
    (hrounded : Rounding.decimal.accounting rawOpen = rawOpen) :
    Slipped side rawOpen
      (Rounding.decimal.accounting (rawOpen * executionPriceFactor .decimal side costs)) := by
  obtain ⟨hbuy, hsellPos, hsell⟩ := @executionPriceFactor_bounds costs
  cases side with
  | buy =>
    have hle := Rounding.decimal.accounting_mono (le_mul_of_one_le_right hpos.le hbuy)
    rw [hrounded] at hle
    refine ⟨hpos.trans_le hle, ?_⟩
    simp only [Side.direction, Int.cast_one, one_mul]
    exact sub_nonneg.mpr hle
  | sell =>
    have hle := Rounding.decimal.accounting_mono (mul_le_of_le_one_right hpos.le hsell)
    rw [hrounded] at hle
    refine ⟨decimal_accounting_pos (mul_pos hpos hsellPos), ?_⟩
    simp only [Side.direction, Int.reduceNeg, Int.cast_neg, Int.cast_one, neg_mul, one_mul, neg_sub]
    exact sub_nonneg.mpr hle

/-! ### Valid fills -/

/-- The terms of an order whose price is positive and whose change of the account has the
direction of its side. -/
structure FillTerms.Directed (terms : FillTerms) : Prop where
  rawOpen : 0 < terms.rawOpen
  adjustedOpen : 0 < terms.adjustedOpen
  slipped : Slipped terms.order.side terms.rawOpen terms.executionPrice
  gross : 0 < -(terms.order.side.direction : ℚ) * terms.deltas.gross
  units : 0 < (terms.order.side.direction : ℚ) * terms.deltas.units
  total : terms.totalQuantity < 10 ^ 30

lemma feeParts_nonneg {notional : ℚ} (h : 0 ≤ notional) (side : Side) :
    let fees := transactionCostParts R notional side costs
    0 ≤ fees.commission ∧ 0 ≤ fees.stampDuty ∧ 0 ≤ fees.transferFee
      ∧ (side = .buy → fees.stampDuty = 0) := by
  refine ⟨le_max_of_le_right costs.commissionMin_nonneg, ?_,
    R.accounting_nonneg (mul_nonneg h costs.transferFeeRate_nonneg), ?_⟩
  · cases side with
    | buy => exact le_rfl
    | sell => exact R.accounting_nonneg (mul_nonneg h costs.stampDutySellRate_nonneg)
  · rintro rfl
    rfl

/-- What a gross change and its settlement have to do with each other. -/
lemma settlement_direction {side : Side} {gross : ℚ} (h : 0 < -(side.direction : ℚ) * gross) :
    0 < |gross| ∧ gross = -(side.direction : ℚ) * |gross| := by
  cases side with
  | buy =>
    simp only [Side.direction, Int.cast_one, neg_mul, one_mul] at h ⊢
    have hneg : gross < 0 := neg_pos.mp h
    exact ⟨abs_pos.mpr hneg.ne, by rw [abs_of_neg hneg, neg_neg]⟩
  | sell =>
    simp only [Side.direction, Int.reduceNeg, Int.cast_neg, Int.cast_one, neg_neg, one_mul] at h ⊢
    exact ⟨abs_pos.mpr h.ne', (abs_of_pos h).symm⟩

/-- A change between two cumulative share counts keeps the direction of the whole change. -/
lemma directed_step {direction amount : ℚ} (hdirection : direction = 1 ∨ direction = -1)
    (h : 0 < direction * amount) {cumulative next total : ℕ} (hlt : cumulative < next)
    (hle : next ≤ total) (htotal : total < 10 ^ 30) :
    0 < direction * Rounding.decimal.accounting
      (prorated .decimal amount next total - prorated .decimal amount cumulative total) := by
  obtain ⟨hpos, hneg⟩ := @prorated_step amount cumulative next total hlt hle htotal
  rcases hdirection with rfl | rfl
  · rw [one_mul] at h ⊢
    exact hpos h
  · rw [neg_one_mul] at h ⊢
    exact neg_pos.mpr (hneg (neg_pos.mp h))

lemma Side.direction_cases (side : Side) :
    (side.direction : ℚ) = 1 ∨ (side.direction : ℚ) = -1 := by
  cases side <;> simp [Side.direction]

/-- Every fill of a directed order is a valid fill event. -/
theorem allocateFills_valid {terms : FillTerms} (h : terms.Directed) {quantities : List ℕ}
    (firstShare : ℕ) (prior : Deltas) (net : ℚ)
    (hcovers : Covers terms.totalQuantity firstShare quantities)
    (hgross : prior.gross = prorated .decimal terms.deltas.gross firstShare terms.totalQuantity)
    (hunits : prior.units = prorated .decimal terms.deltas.units firstShare terms.totalQuantity) :
    ∀ fill ∈ allocateFills .decimal terms prior net
      (childCosts .decimal costs terms.order.side terms.executionPrice firstShare quantities),
      fill.validate .decimal = .ok () := by
  induction quantities generalizing firstShare prior net with
  | nil => exact fun _ hfill => absurd hfill List.not_mem_nil
  | cons quantity quantities ih =>
    have hquantity : 0 < quantity := hcovers.1 quantity List.mem_cons_self
    have hle : firstShare + quantity ≤ terms.totalQuantity := by
      have hsum := hcovers.2
      rw [List.sum_cons] at hsum
      omega
    have hnotional : 0 < Rounding.decimal.money
        (Rounding.decimal.ambient (quantity * terms.executionPrice)) := by
      rw [Rounding.money_ambient]
      have hquantityQ : (0 : ℚ) < quantity := by exact_mod_cast hquantity
      exact roundTo_pos (by decide) (mul_pos hquantityQ h.slipped.positive)
    obtain ⟨hcommission, hstamp, htransfer, hbuy⟩ :=
      @feeParts_nonneg .decimal costs _ hnotional.le terms.order.side
    have hcost := @transactionCost_nonneg .decimal costs _ hnotional.le terms.order.side
    have hgrossStep := directed_step (by
        rcases terms.order.side.direction_cases with hside | hside <;> rw [hside] <;> norm_num)
      h.gross (show firstShare < firstShare + quantity by omega) hle h.total
    have hunitsStep := directed_step terms.order.side.direction_cases h.units
      (show firstShare < firstShare + quantity by omega) hle h.total
    rw [← prorate_gross, ← hgross] at hgrossStep
    rw [← prorate_units, ← hunits] at hunitsStep
    obtain ⟨hsettlement, hcash⟩ := settlement_direction hgrossStep
    have hslippage : 0 ≤ (terms.order.side.direction : ℚ)
        * Rounding.decimal.accounting (terms.executionPrice - terms.rawOpen) := by
      have hcostly := h.slipped.costly
      cases hside : terms.order.side with
      | buy =>
        rw [hside] at hcostly
        simp only [Side.direction, Int.cast_one, one_mul] at hcostly ⊢
        exact Rounding.decimal.accounting_nonneg hcostly
      | sell =>
        rw [hside] at hcostly
        simp only [Side.direction, Int.reduceNeg, Int.cast_neg, Int.cast_one, neg_mul, one_mul]
          at hcostly ⊢
        rw [← decimal_accounting_neg]
        exact Rounding.decimal.accounting_nonneg hcostly
    intro fill hfill
    unfold childCosts allocateFills at hfill
    rcases List.mem_cons.mp hfill with rfl | hrest
    · apply FillEvent.validate_ok
      · cases hside : terms.order.side <;> simp [Order.childOrder, Side.direction, hside]
      · exact ⟨h.rawOpen, h.slipped.positive, h.adjustedOpen, hnotional, hsettlement, hcost⟩
      · exact ⟨hcommission, hstamp, htransfer, rfl⟩
      · exact ⟨rfl, hslippage⟩
      · exact hbuy
      · exact hcash
      · exact hunitsStep
    · exact ih _ _ _ hcovers.tail (prorate_gross _ _ _) (prorate_units _ _ _) fill hrest

/-! ### Executed orders -/

lemma childQuantities_pos {board : Board} {cap full remaining : ℕ} {complete : Bool}
    (hcap : board.cap = some cap) (hpos : 0 < remaining) :
    ∀ quantity ∈ childQuantities cap board.minimum complete full remaining, 0 < quantity := by
  obtain ⟨-, hmin, hdouble, -⟩ := Board.cap_bounds hcap
  unfold childQuantities
  intro quantity hquantity
  split at hquantity
  · simp only [List.mem_append, List.mem_replicate, List.mem_cons, List.not_mem_nil,
      or_false] at hquantity
    rcases hquantity with ⟨-, rfl⟩ | rfl | rfl <;> omega
  · simp only [List.mem_append, List.mem_replicate, List.mem_singleton] at hquantity
    rcases hquantity with ⟨-, rfl⟩ | rfl <;> omega

/-- A split order is covered by positive children. -/
lemma splitChildOrders_covers {board : Board} {quantity : ℕ} {complete : Bool}
    {quantities : List ℕ} (hpos : 0 < quantity)
    (h : splitChildOrders board quantity complete = .ok quantities) :
    Covers quantity 0 quantities := by
  refine ⟨?_, by rw [Nat.zero_add]; exact splitChildOrders_sum h⟩
  have hsplit := h
  unfold splitChildOrders at h
  simp only [bind_ok_iff, found_ok_iff, require_ok_iff, exists_const] at h
  obtain ⟨cap, hcap, hlot, -⟩ := h
  have hcapPos : 0 < cap := by
    obtain ⟨-, hmin, hdouble, -⟩ := Board.cap_bounds hcap
    omega
  obtain ⟨full, remaining, rfl, hremaining, hle, -⟩ := exists_full_remaining hcapPos hpos
  rw [splitChildOrders_eq hcap hremaining hle hlot] at hsplit
  cases hsplit
  exact childQuantities_pos hcap hremaining

def sharesHeld (positions : Positions) (id : InstrumentId) : ℤ :=
  ((positions.lookup id).map Position.executionShares).getD 0

/-- What an order did to the cash and the units of the account. -/
def orderMutation (account : Account) (order : Order) (outcome : OrderOutcome) : Deltas where
  gross := outcome.settlement.grossCash - account.grossCash
  net := outcome.settlement.netCash - account.netCash
  units := unitsHeld outcome.settlement.positions order.instrument
    - unitsHeld account.positions order.instrument

def Deltas.rounded (R : Rounding) (deltas : Deltas) : Deltas where
  gross := R.accounting deltas.gross
  net := R.accounting deltas.net
  units := R.accounting deltas.units

/-- The fills of an order allocate its change of the account to its children. -/
theorem fillOrder_fills {account : Account} {order : Order} {price : ExecutionPrice}
    {outcome : OrderOutcome} (hpos : 0 < order.quantity)
    (h : fillOrder R data costs account order price = .ok outcome) :
    ∃ quantities, Covers order.quantity 0 quantities ∧
      let executionPrice := R.accounting (price.rawOpen * executionPriceFactor R order.side costs)
      let children := childCosts R costs order.side executionPrice 0 quantities
      outcome.childOrders = children.map order.childOrder
        ∧ outcome.cost = totalChildCost R children
        ∧ outcome.fills = allocateFills R
          { order := order, rawOpen := price.rawOpen, executionPrice := executionPrice
            adjustedOpen := price.adjustedOpen, totalQuantity := order.quantity
            deltas := (orderMutation account order outcome).rounded R } ⟨0, 0, 0⟩ 0 children := by
  unfold fillOrder at h
  simp only [bind_ok_iff, found_ok_iff, pure_ok_iff] at h
  obtain ⟨profile, -, quantities, hsplit, settlement, -, rfl⟩ := h
  refine ⟨quantities, splitChildOrders_covers hpos hsplit, rfl, rfl, ?_⟩
  rw [splitChildOrders_sum hsplit]
  rfl

lemma fillOrder_shares {account : Account} {order : Order} {price : ExecutionPrice}
    {outcome : OrderOutcome} (h : fillOrder R data costs account order price = .ok outcome) :
    sharesHeld outcome.settlement.positions order.instrument
      = sharesHeld account.positions order.instrument + order.side.direction * order.quantity := by
  unfold sharesHeld
  cases hside : order.side with
  | buy =>
    obtain ⟨_, _, _, _, -, -, -, -, -, hsettlement⟩ := fillOrder_buy hside h
    rw [hsettlement, OrderedMap.lookup_set, if_pos rfl]
    cases account.positions.lookup order.instrument <;>
      simp [boughtPosition, Side.direction]
  | sell =>
    obtain ⟨_, _, position, removed, -, -, hposition, -, -, -, -, hpositions⟩ :=
      fillOrder_sell hside h
    rw [hposition]
    rcases hpositions with ⟨hall, herased⟩ | ⟨-, rest, hrest, hset⟩
    · have hnone := AList.lookup_erase order.instrument account.positions
      rw [herased, hnone]
      simp [Side.direction, hall]
    · unfold reducedPosition at hrest
      simp only [bind_ok_iff, pure_ok_iff] at hrest
      obtain ⟨_, -, rfl⟩ := hrest
      rw [hset, OrderedMap.lookup_set, if_pos rfl]
      simp only [Option.map_some, Option.getD_some, Side.direction]
      omega

/-! ### Main results -/

/-- An Open of the market data: positive prices, the raw one read from a short text. -/
structure ExecutionPrice.Quoted (price : ExecutionPrice) : Prop where
  rawOpen : 0 < price.rawOpen
  adjustedOpen : 0 < price.adjustedOpen
  digits : Rounding.decimal.accounting price.rawOpen = price.rawOpen

/-- The change of the account survives the digits of its cash and units, and there are fewer
shares than they can tell apart. -/
structure Order.Resolved (account : Account) (order : Order) (outcome : OrderOutcome) : Prop where
  gross : 0 < -(order.side.direction : ℚ) * (orderMutation account order outcome).gross
  units : 0 < (order.side.direction : ℚ) * (orderMutation account order outcome).units
  shares : order.quantity < 10 ^ 30

lemma accounting_directed {direction amount : ℚ} (hdirection : direction = 1 ∨ direction = -1)
    (h : 0 < direction * amount) : 0 < direction * Rounding.decimal.accounting amount := by
  rcases hdirection with rfl | rfl
  · rw [one_mul] at h ⊢
    exact decimal_accounting_pos h
  · rw [neg_one_mul] at h ⊢
    rw [← decimal_accounting_neg]
    exact decimal_accounting_pos h

/-- What the fills of a market order allocate: sums over the fills, against the account. -/
structure FillsConserve (R : Rounding) (account : Account) (order : Order)
    (outcome : OrderOutcome) (children : List ChildCost) : Prop where
  childOrders : outcome.childOrders = children.map order.childOrder
  costs : outcome.fills.map FillEvent.cost = children.map ChildCost.cost
  shares : (outcome.fills.map FillEvent.executionSharesDelta).sum
    = sharesHeld outcome.settlement.positions order.instrument
      - sharesHeld account.positions order.instrument
  gross : (outcome.fills.map FillEvent.grossCashDelta).sum
    = (orderMutation account order outcome).gross
      + (roundingOf R (orderMutation account order outcome).gross
        + (allocationRounding R ((orderMutation account order outcome).rounded R) order.quantity
          ⟨0, 0, 0⟩ 0 children).gross)
  net : (outcome.fills.map FillEvent.netCashDelta).sum
    = (orderMutation account order outcome).net
      + (roundingOf R (orderMutation account order outcome).net
        + (allocationRounding R ((orderMutation account order outcome).rounded R) order.quantity
          ⟨0, 0, 0⟩ 0 children).net)
  units : (outcome.fills.map FillEvent.adjustedUnitsDelta).sum
    = (orderMutation account order outcome).units
      + (roundingOf R (orderMutation account order outcome).units
        + (allocationRounding R ((orderMutation account order outcome).rounded R) order.quantity
          ⟨0, 0, 0⟩ 0 children).units)
  total : outcome.cost = (outcome.fills.map FillEvent.cost).sum + costRounding R 0 children

theorem fillOrder_conserves {account : Account} {order : Order} {price : ExecutionPrice}
    {outcome : OrderOutcome} (hpos : 0 < order.quantity)
    (h : fillOrder R data costs account order price = .ok outcome) :
    ∃ children, FillsConserve R account order outcome children := by
  have hshares := fillOrder_shares h
  obtain ⟨quantities, hcovers, hchildOrders, hcost, hfills⟩ := fillOrder_fills hpos h
  have hne : quantities ≠ [] := by
    rintro rfl
    have hsum := hcovers.2
    simp only [List.sum_nil] at hsum
    omega
  refine ⟨_, hchildOrders, ?_, ?_, ?_, ?_, ?_, ?_⟩
  · rw [hfills, allocateFills_costs]
  · rw [hfills, allocateFills_shares, hshares]
    have hsum := hcovers.2
    rw [Nat.zero_add] at hsum
    cases order.side <;> simp [Side.direction, hsum]
  · rw [hfills, (allocateFills_gross_units 0 ⟨0, 0, 0⟩ 0 hne hcovers).1]
    simp only [Deltas.rounded, accounting_eq (R := R) (orderMutation account order outcome).gross]
    ring
  · rw [hfills, allocateFills_net 0 ⟨0, 0, 0⟩ 0 hne hcovers]
    simp only [Deltas.rounded, accounting_eq (R := R) (orderMutation account order outcome).net]
    ring
  · rw [hfills, (allocateFills_gross_units 0 ⟨0, 0, 0⟩ 0 hne hcovers).2]
    simp only [Deltas.rounded, accounting_eq (R := R) (orderMutation account order outcome).units]
    ring
  · rw [hcost, hfills, allocateFills_costs]
    unfold totalChildCost
    rw [totalChildCost_eq_sum, zero_add]

theorem rejectOrder_conserves (account : Account) (order : Order) (reason : RejectionReason)
    (hzero : R.accounting 0 = 0) :
    FillsConserve R account order (rejectOrder account order reason) [] := by
  refine ⟨rfl, rfl, ?_, ?_, ?_, ?_, ?_⟩ <;>
    simp [rejectOrder, orderMutation, roundingOf, allocationRounding, costRounding, hzero]

lemma fillOrder_valid {account : Account} {order : Order} {price : ExecutionPrice}
    {outcome : OrderOutcome} (hpos : 0 < order.quantity) (hquoted : price.Quoted)
    (hresolved : order.Resolved account outcome)
    (h : fillOrder .decimal data costs account order price = .ok outcome) :
    ∀ fill ∈ outcome.fills, fill.validate .decimal = .ok () := by
  obtain ⟨quantities, hcovers, -, -, hfills⟩ := fillOrder_fills hpos h
  rw [hfills]
  refine allocateFills_valid ?_ 0 ⟨0, 0, 0⟩ 0 hcovers ?_ ?_
  · refine ⟨hquoted.rawOpen, hquoted.adjustedOpen,
      slipped_executionPrice hquoted.rawOpen hquoted.digits, ?_, ?_, hresolved.shares⟩
    · refine accounting_directed ?_ hresolved.gross
      rcases order.side.direction_cases with hside | hside <;> rw [hside] <;> norm_num
    · exact accounting_directed order.side.direction_cases hresolved.units
  · exact (prorated_zero _ hpos).symm
  · exact (prorated_zero _ hpos).symm

/-- The fills of an order account for its change of the account: shares exactly; units, cash and
cost up to the roundings of the differences and running totals in their decimal contexts. Where
the account resolves the change, every fill is valid. -/
theorem fills_conserve_order {account : Account} {order : Order} {outcome : OrderOutcome}
    (hpos : 0 < order.quantity)
    (h : executeOrder .decimal data costs account order = .ok outcome) :
    (∃ children, FillsConserve .decimal account order outcome children)
      ∧ ((∀ price, data.executionPrices order.context.session order.instrument = some price →
          price.Quoted) → order.Resolved account outcome →
        ∀ fill ∈ outcome.fills, fill.validate .decimal = .ok ()) := by
  rcases executeOrder_cases h with ⟨reason, rfl⟩ | ⟨price, hprice, hfill⟩
  · refine ⟨⟨[], rejectOrder_conserves account order reason (DecimalContext.roundTo_zero 34)⟩, ?_⟩
    exact fun _ _ fill hfill => absurd hfill List.not_mem_nil
  · exact ⟨fillOrder_conserves hpos hfill, fun hquoted hresolved =>
      fillOrder_valid hpos (hquoted price hprice) hresolved hfill⟩

/-! ### Exact arithmetic -/

lemma roundingOf_exact (x : ℚ) : roundingOf .exact x = 0 :=
  sub_self x

lemma allocationRounding_exact (deltas : Deltas) (total : ℕ) (children : List ChildCost)
    (prior : Deltas) (net : ℚ) :
    allocationRounding .exact deltas total prior net children = ⟨0, 0, 0⟩ := by
  induction children generalizing prior net with
  | nil => rfl
  | cons child children ih =>
    unfold allocationRounding
    simp only [ih, roundingOf_exact, add_zero, sub_zero, ite_self]

lemma costRounding_exact (children : List ChildCost) (total : ℚ) :
    costRounding .exact total children = 0 := by
  induction children generalizing total with
  | nil => rfl
  | cons child children ih =>
    unfold costRounding
    simp only [Rounding.exact_ambient, Rounding.exact_money, sub_self, ih, add_zero]

/-- Without roundings the fills add up to the order. -/
theorem FillsConserve.exact {account : Account} {order : Order} {outcome : OrderOutcome}
    {children : List ChildCost} (h : FillsConserve .exact account order outcome children) :
    (outcome.fills.map FillEvent.grossCashDelta).sum = (orderMutation account order outcome).gross
      ∧ (outcome.fills.map FillEvent.netCashDelta).sum = (orderMutation account order outcome).net
      ∧ (outcome.fills.map FillEvent.adjustedUnitsDelta).sum
        = (orderMutation account order outcome).units
      ∧ outcome.cost = (outcome.fills.map FillEvent.cost).sum := by
  obtain ⟨-, -, -, hgross, hnet, hunits, htotal⟩ := h
  rw [allocationRounding_exact, roundingOf_exact, add_zero, add_zero] at hgross hnet hunits
  rw [costRounding_exact, add_zero] at htotal
  exact ⟨hgross, hnet, hunits, htotal⟩

/-! ### Digits that are lost -/

/-- A liquidation in three children, of one unit in three million shares. -/
def unitAccount (cash : ℚ) : Account where
  positions := OrderedMap.ofRows [⟨1,
    { executionShares := 3000000
      adjustedUnits := 1
      lastAdjustedPrice := 1
      remainingAcquisitionCost := 1
      holdingCycleStartedSession := 0
      holdingAge := 1
      lastCloseAdjustedPrice := some 1 }⟩]
  grossCash := cash
  netCash := cash
  cumulativeCost := 0

def marketOrder (side : Side) (quantity : ℕ) : Order where
  context := ⟨0, 1, "rebalance"⟩
  instrument := 1
  side := side
  quantity := quantity
  intendedValue := 0
  unroundedQuantity := quantity

lemma unitAccount_sells :
    stoppedBy (executeOrder .decimal (sampleMarket fun _ _ => some 1) (sampleCosts 6)
      (unitAccount 100) (marketOrder .sell 3000000)) = none := by
  decide

lemma unitAccount_buys (cash : ℕ) (hcash : cash = 100 ∨ cash = 10 ^ 30) :
    stoppedBy (executeOrder .decimal (sampleMarket fun _ _ => some (1 / 100)) (sampleCosts 0)
      (unitAccount cash) (marketOrder .buy 100)) = none := by
  rcases hcash with rfl | rfl <;> decide +kernel

/-- Three fills of a third each miss the net change by their thirty-fourth digits, and a penny
stock leaves no trace in cash of thirty digits. -/
theorem fills_conserve_order_digits :
    (∃ outcome, executeOrder .decimal (sampleMarket fun _ _ => some 1) (sampleCosts 6)
        (unitAccount 100) (marketOrder .sell 3000000) = .ok outcome
      ∧ (outcome.fills.map FillEvent.netCashDelta).sum
        ≠ (orderMutation (unitAccount 100) (marketOrder .sell 3000000) outcome).net)
      ∧ ∃ outcome, executeOrder .decimal (sampleMarket fun _ _ => some (1 / 100)) (sampleCosts 0)
          (unitAccount (10 ^ 30 : ℕ)) (marketOrder .buy 100) = .ok outcome
        ∧ ∃ fill ∈ outcome.fills, fill.validate .decimal ≠ .ok () := by
  refine ⟨⟨_, okValue_eq unitAccount_sells, ?_⟩,
    _, okValue_eq (unitAccount_buys (10 ^ 30) (.inr rfl)), ?_⟩
  · decide +kernel
  · decide +kernel

/-- An ordinary purchase: its fills conserve it and are valid. -/
theorem fills_conserve_order_purchase :
    ∃ outcome children, FillsConserve .decimal (unitAccount (100 : ℕ)) (marketOrder .buy 100) outcome
        children
      ∧ outcome.fills.length = 1 ∧ ∀ fill ∈ outcome.fills, fill.validate .decimal = .ok () := by
  have hbuys := okValue_eq (unitAccount_buys 100 (.inl rfl))
  obtain ⟨⟨children, hconserve⟩, hvalid⟩ := fills_conserve_order (by decide) hbuys
  refine ⟨_, children, hconserve, by decide +kernel, hvalid ?_ ?_⟩
  · rintro price hprice
    obtain rfl : ⟨1 / 100, 1 / 100, fun h => h⟩ = price := Option.some.inj hprice
    exact ⟨by norm_num, by norm_num, by decide +kernel⟩
  · exact ⟨by decide +kernel, by decide +kernel, by decide⟩

end ThesisTrace.Strategy
