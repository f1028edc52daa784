import Mathlib.Order.Bounds.Basic
import ThesisTrace.Strategy.ChildOrders
import ThesisTrace.Strategy.Solvency

/-!
# Affordable quantities

The outlay of a buy is its notional and the cost of its children. In exact arithmetic it grows with
the quantity, also where another child pays the minimum commission, so the binary search finds the
largest order that the cash pays for.
-/

namespace ThesisTrace.Strategy
open Transaction

variable {costs : Costs}

/-! ### Search -/

/-- The binary search over a property that is inherited downwards finds its last instance. -/
lemma affordableUnits_greatest (affordable : ℕ → Except StrategyError Bool) (P : ℕ → Prop)
    [DecidablePred P] (fuel low high : ℕ) (hle : low ≤ high) (hfuel : high - low ≤ fuel)
    (hcheck : ∀ u, low < u → u ≤ high → affordable u = .ok (decide (P u)))
    (hdown : ∀ u v, low < u → u ≤ v → v ≤ high → P v → P u) :
    ∃ units, affordableUnits affordable fuel low high = .ok units ∧ low ≤ units ∧ units ≤ high ∧
      (units = low ∨ P units) ∧ ∀ u, units < u → u ≤ high → ¬P u := by
  induction fuel generalizing low high with
  | zero => exact ⟨low, rfl, le_rfl, hle, .inl rfl, fun u hu hhigh => by omega⟩
  | succ fuel ih =>
    unfold affordableUnits
    by_cases hlt : low < high
    · have hmiddle : low < (low + high + 1) / 2 ∧ (low + high + 1) / 2 ≤ high := by omega
      simp only [hlt, if_true, hcheck _ hmiddle.1 hmiddle.2]
      by_cases hP : P ((low + high + 1) / 2)
      · obtain ⟨units, hunits, hlow, hhigh, hfound, hnone⟩ := ih ((low + high + 1) / 2) high
          (by omega) (by omega) (fun u hu => hcheck u (by omega))
          (fun u v hu => hdown u v (by omega))
        refine ⟨units, ?_, by omega, hhigh, .inr ?_, hnone⟩
        · simpa [hP] using hunits
        · rcases hfound with rfl | hfound
          · exact hP
          · exact hfound
      · obtain ⟨units, hunits, hlow, hhigh, hfound, hnone⟩ := ih low
          ((low + high + 1) / 2 - 1) (by omega) (by omega)
          (fun u hu hhigh => hcheck u hu (by omega))
          (fun u v hu huv hhigh => hdown u v hu huv (by omega))
        refine ⟨units, ?_, hlow, by omega, hfound, fun u hu huhigh => ?_⟩
        · simpa [hP] using hunits
        · by_cases hlast : u ≤ (low + high + 1) / 2 - 1
          · exact hnone u hu hlast
          · exact fun hPu => hP (hdown _ u hmiddle.1 (by omega) huhigh hPu)
    · rw [if_neg hlt]
      exact ⟨low, rfl, le_rfl, hle, .inl rfl, fun u hu hhigh => by omega⟩

/-! ### Charges of split orders -/

section Charges
variable {f : ℕ → ℚ} {cap minimum : ℕ}

/-- What the children of an order are charged together. -/
def childCharge (f : ℕ → ℚ) (cap minimum full remaining : ℕ) : ℚ :=
  ((childQuantities cap minimum false full remaining).map f).sum

lemma childCharge_of_topped {full remaining : ℕ} (hfull : 0 < full) (hlt : remaining < minimum) :
    childCharge f cap minimum full remaining =
      (full - 1 : ℕ) * f cap + f (cap - (minimum - remaining)) + f minimum := by
  have htop : false = false ∧ 0 < full ∧ remaining < minimum := ⟨rfl, hfull, hlt⟩
  rw [childCharge, childQuantities, if_pos htop]
  simp [add_assoc]

lemma childCharge_of_not_topped {full remaining : ℕ} (h : full = 0 ∨ minimum ≤ remaining) :
    childCharge f cap minimum full remaining = full * f cap + f remaining := by
  have htop : ¬(false = false ∧ 0 < full ∧ remaining < minimum) := by omega
  rw [childCharge, childQuantities, if_neg htop]
  simp

lemma pred_mul_add {full : ℕ} (hfull : 0 < full) (x : ℚ) :
    (full : ℚ) * x = (full - 1 : ℕ) * x + x := by
  obtain ⟨n, rfl⟩ : ∃ n, full = n + 1 := ⟨full - 1, by omega⟩
  rw [Nat.add_sub_cancel]
  push_cast
  ring

/-- A larger remainder is charged more, also where it no longer needs a top-up. -/
lemma childCharge_mono_remaining (hmono : Monotone f) {full remaining remaining' : ℕ}
    (hle : remaining ≤ remaining') :
    childCharge f cap minimum full remaining ≤ childCharge f cap minimum full remaining' := by
  have hlast := hmono hle
  by_cases htop : full = 0 ∨ minimum ≤ remaining
  · rw [childCharge_of_not_topped htop, childCharge_of_not_topped (htop.imp_right (le_trans · hle))]
    linarith
  · have hfull : 0 < full := by omega
    have hshort : f (cap - (minimum - remaining)) ≤ f (cap - (minimum - remaining')) :=
      hmono (by omega)
    rw [childCharge_of_topped hfull (by omega)]
    by_cases htop' : minimum ≤ remaining'
    · have hfirst : f (cap - (minimum - remaining)) ≤ f cap := hmono (Nat.sub_le _ _)
      have hsecond : f minimum ≤ f remaining' := hmono htop'
      rw [childCharge_of_not_topped (.inr htop'), pred_mul_add hfull]
      linarith
    · rw [childCharge_of_topped hfull (by omega)]
      linarith

/-- One more share than full children hold starts another child, which is charged no less. -/
lemma childCharge_next_child (hmono : Monotone f) (hsub : ∀ a b, f (a + b) ≤ f a + f b)
    (hnonneg : ∀ a, 0 ≤ f a) (hmin : minimum ≤ cap) (full : ℕ) :
    childCharge f cap minimum full cap ≤ childCharge f cap minimum (full + 1) 1 := by
  rw [childCharge_of_not_topped (.inr hmin)]
  by_cases htop : 1 < minimum
  · have hsplit := hsub (cap - (minimum - 1)) minimum
    have hgrow : f cap ≤ f (cap - (minimum - 1) + minimum) := hmono (by omega)
    rw [childCharge_of_topped (Nat.succ_pos full) htop, Nat.succ_sub_one]
    linarith
  · have hone := hnonneg 1
    rw [childCharge_of_not_topped (.inr (by omega))]
    push_cast
    linarith

lemma childCharge_full_le (hmono : Monotone f) (hsub : ∀ a b, f (a + b) ≤ f a + f b)
    (hnonneg : ∀ a, 0 ≤ f a) (hmin : minimum ≤ cap) (hcap : 0 < cap) {full full' : ℕ}
    (hlt : full < full') :
    childCharge f cap minimum full cap ≤ childCharge f cap minimum full' 1 := by
  induction full', hlt using Nat.le_induction with
  | base => exact childCharge_next_child hmono hsub hnonneg hmin full
  | succ n _ ih =>
    exact ih.trans ((childCharge_mono_remaining hmono hcap).trans
      (childCharge_next_child hmono hsub hnonneg hmin n))

/-- Larger orders are charged no less. -/
theorem childCharge_mono (hmono : Monotone f) (hsub : ∀ a b, f (a + b) ≤ f a + f b)
    (hnonneg : ∀ a, 0 ≤ f a) (hmin : minimum ≤ cap) (hcap : 0 < cap)
    {full full' remaining remaining' : ℕ} (hremaining : remaining ≤ cap)
    (hremaining' : 0 < remaining') (hbound : remaining' ≤ cap) (hpos : 0 < remaining)
    (hle : full * cap + remaining ≤ full' * cap + remaining') :
    childCharge f cap minimum full remaining ≤ childCharge f cap minimum full' remaining' := by
  rcases lt_trichotomy full full' with hlt | rfl | hgt
  · exact (childCharge_mono_remaining hmono hremaining).trans
      ((childCharge_full_le hmono hsub hnonneg hmin hcap hlt).trans
        (childCharge_mono_remaining hmono hremaining'))
  · exact childCharge_mono_remaining hmono (by omega)
  · have hmul : (full' + 1) * cap ≤ full * cap := Nat.mul_le_mul_right cap hgt
    rw [Nat.succ_mul] at hmul
    omega

end Charges

/-! ### Outlay -/

/-- What a child of a buy costs in exact arithmetic. -/
def exactChildCost (costs : Costs) (executionPrice : ℚ) (child : ℕ) : ℚ :=
  transactionCost .exact (child * executionPrice) .buy costs

/-- Notional and cost of a buy, each child with its own cost. -/
def buyOutlay (board : Board) (executionPrice : ℚ) (costs : Costs) (quantity : ℕ) :
    Except StrategyError ℚ := do
  let children ← splitChildOrders board quantity false
  return quantity * executionPrice + (children.map (exactChildCost costs executionPrice)).sum

lemma exactChildCost_eq (executionPrice : ℚ) (child : ℕ) :
    exactChildCost costs executionPrice child =
      max (child * executionPrice * costs.commissionRateAllIn) costs.commissionMin +
        child * executionPrice * costs.transferFeeRate := by
  simp [exactChildCost, transactionCost, FeeParts.total, transactionCostParts]

section Price
variable {executionPrice : ℚ}

lemma exactChildCost_mono (hprice : 0 ≤ executionPrice) :
    Monotone (exactChildCost costs executionPrice) := by
  intro a b hab
  have hrate := costs.commissionRateAllIn_nonneg
  have htransfer := costs.transferFeeRate_nonneg
  have hcast : (a : ℚ) ≤ b := Nat.cast_le.mpr hab
  rw [exactChildCost_eq, exactChildCost_eq]
  gcongr

/-- The minimum commission is charged for each of two children, but once for both together. -/
lemma exactChildCost_add_le (a b : ℕ) :
    exactChildCost costs executionPrice (a + b) ≤
      exactChildCost costs executionPrice a + exactChildCost costs executionPrice b := by
  have hmin := costs.commissionMin_nonneg
  have hrate := costs.commissionRateAllIn_nonneg
  rw [exactChildCost_eq, exactChildCost_eq, exactChildCost_eq]
  push_cast
  have hcommission : max ((a + b) * executionPrice * costs.commissionRateAllIn)
      costs.commissionMin ≤ max (a * executionPrice * costs.commissionRateAllIn)
        costs.commissionMin + max (b * executionPrice * costs.commissionRateAllIn)
          costs.commissionMin := by
    have ha := le_max_left (a * executionPrice * costs.commissionRateAllIn) costs.commissionMin
    have hb := le_max_left (b * executionPrice * costs.commissionRateAllIn) costs.commissionMin
    have ha' := le_max_right (a * executionPrice * costs.commissionRateAllIn) costs.commissionMin
    have hb' := le_max_right (b * executionPrice * costs.commissionRateAllIn) costs.commissionMin
    exact max_le (by linarith) (by linarith)
  linarith

lemma exactChildCost_nonneg (hprice : 0 ≤ executionPrice) (child : ℕ) :
    0 ≤ exactChildCost costs executionPrice child :=
  transactionCost_nonneg (mul_nonneg (Nat.cast_nonneg child) hprice) .buy

/-- The outlay of a legal buy, along its full children and its remainder. -/
lemma buyOutlay_eq {board : Board} {cap full remaining : ℕ} (hcap : board.cap = some cap)
    (hpos : 0 < remaining) (hle : remaining ≤ cap)
    (hlegal : board.Legal (full * cap + remaining)) :
    buyOutlay board executionPrice costs (full * cap + remaining) =
      .ok ((full * cap + remaining : ℕ) * executionPrice +
        childCharge (exactChildCost costs executionPrice) cap board.minimum full remaining) := by
  unfold buyOutlay
  rw [splitChildOrders_eq hcap hpos hle (.inr (Board.legal_iff.mp hlegal).2.2.2)]
  rfl

/-- The outlay of a legal buy grows with its quantity. -/
theorem buyOutlay_mono (costs : Costs) (hprice : 0 ≤ executionPrice) {board : Board} {quantity quantity' : ℕ}
    (hlegal : board.Legal quantity) (hlegal' : board.Legal quantity') (hle : quantity ≤ quantity') :
    ∃ outlay outlay', buyOutlay board executionPrice costs quantity = .ok outlay ∧
      buyOutlay board executionPrice costs quantity' = .ok outlay' ∧ outlay ≤ outlay' := by
  obtain ⟨cap, hcap⟩ := Board.cap_eq_some_iff.mpr (Board.legal_iff.mp hlegal).1
  have hbounds := Board.cap_bounds hcap
  obtain ⟨full, remaining, rfl, hpos, hbound, -⟩ :=
    exists_full_remaining (show 0 < cap by omega) hlegal.1
  obtain ⟨full', remaining', rfl, hpos', hbound', -⟩ :=
    exists_full_remaining (show 0 < cap by omega) hlegal'.1
  refine ⟨_, _, buyOutlay_eq hcap hpos hbound hlegal, buyOutlay_eq hcap hpos' hbound' hlegal',
    add_le_add ?_ ?_⟩
  · exact mul_le_mul_of_nonneg_right (Nat.cast_le.mpr hle) hprice
  · exact childCharge_mono (exactChildCost_mono hprice) exactChildCost_add_le
      (exactChildCost_nonneg hprice) (by omega) (by omega) hbound hpos' hbound' hpos hle

/-- The cash pays for a buy. -/
def PaidBy (board : Board) (executionPrice netCash : ℚ) (costs : Costs) (quantity : ℕ) : Prop :=
  ∃ outlay ≤ netCash, buyOutlay board executionPrice costs quantity = .ok outlay

lemma ambientSum_exact (values : List ℚ) : Rounding.exact.ambientSum values = values.sum := by
  rw [List.sum_eq_foldl]
  rfl

/-- The check of the source compares the outlay with the cash. -/
lemma isAffordable_exact {board : Board} {netCash : ℚ} {quantity : ℕ} {outlay : ℚ}
    (h : buyOutlay board executionPrice costs quantity = .ok outlay) :
    isAffordable .exact board executionPrice netCash costs quantity =
      .ok (decide (outlay ≤ netCash)) := by
  unfold buyOutlay at h
  obtain ⟨children, hchildren, h⟩ := bind_ok_iff.mp h
  obtain rfl := Except.ok.inj h
  unfold isAffordable
  rw [hchildren]
  simp only [ambientSum_exact]
  rfl

lemma paidBy_iff {board : Board} {netCash : ℚ} {quantity : ℕ} {outlay : ℚ}
    (h : buyOutlay board executionPrice costs quantity = .ok outlay) :
    PaidBy board executionPrice netCash costs quantity ↔ outlay ≤ netCash := by
  constructor
  · rintro ⟨outlay', hle, h'⟩
    rwa [Except.ok.inj (h.symm.trans h')]
  · exact fun hle => ⟨outlay, hle, h⟩

end Price

/-! ### The largest affordable order -/

/-- Legal orders are the minimum of the board and further steps. -/
lemma Board.legal_iff_units {board : Board} (hboard : board ≠ .other) {quantity : ℕ} :
    board.Legal quantity ↔
      ∃ units, 0 < units ∧ quantity = board.minimum + (units - 1) * board.step := by
  rw [Board.legal_iff]
  cases board with
  | main | chinext =>
    simp only [Board.minimum, Board.step]
    constructor
    · rintro ⟨-, -, hmin, hlot⟩
      have hmod : quantity % 100 = 0 := hlot.resolve_left (by decide)
      exact ⟨quantity / 100, by omega, by omega⟩
    · rintro ⟨units, hpos, rfl⟩
      exact ⟨hboard, by omega, by omega, .inr (by omega)⟩
  | star =>
    simp only [Board.minimum, Board.step]
    constructor
    · rintro ⟨-, -, hmin, -⟩
      exact ⟨quantity - 199, by omega, by omega⟩
    · rintro ⟨units, hpos, rfl⟩
      exact ⟨hboard, by omega, by omega, .inl trivial⟩
  | other => exact absurd rfl hboard

lemma Board.step_pos (board : Board) : 0 < board.step := by
  cases board <;> decide

/-- The orders that the board takes and the cash pays for, up to a requested quantity. -/
def affordableOrders (board : Board) (quantity : ℕ) (executionPrice netCash : ℚ) (costs : Costs) :
    Set ℕ :=
  {order | board.Legal order ∧ order ≤ quantity ∧ PaidBy board executionPrice netCash costs order}

/-- A result is the greatest of these orders, or there is none. -/
def IsGreatestOrZero (orders : Set ℕ) (result : ℕ) : Prop :=
  (result = 0 ∧ orders = ∅) ∨ (0 < result ∧ IsGreatest orders result)

lemma affordableOrders_eq_empty {board : Board} {quantity : ℕ} {executionPrice netCash : ℚ}
    (h : board = .other ∨ quantity < board.minimum) :
    affordableOrders board quantity executionPrice netCash costs = ∅ := by
  ext order
  simp only [affordableOrders, Board.legal_iff, Set.mem_ofPred_eq, Set.mem_empty_iff_false, iff_false]
  rintro ⟨⟨hother, -, hmin, -⟩, hle, -⟩
  rcases h with h | h
  · exact hother h
  · omega

lemma affordableQuantity_greatest (costs : Costs) (netCash : ℚ) {board : Board}
    (hboard : board ≠ .other) {quantity : ℕ} {rawOpen : ℚ} (hprice : 0 ≤ rawOpen ∨ quantity = 0) :
    ∃ result, affordableQuantity .exact board quantity rawOpen netCash costs = .ok result ∧
      IsGreatestOrZero (affordableOrders board quantity
        (rawOpen * executionPriceFactor .exact .buy costs) netCash costs) result := by
  classical
  unfold affordableQuantity
  simp only [Rounding.exact_accounting]
  obtain ⟨cap, hcap⟩ := Board.cap_eq_some_iff.mpr hboard
  have hmin := (Board.cap_bounds hcap).2.1
  by_cases hshort : quantity < board.minimum
  · exact ⟨0, by rw [if_pos hshort]; rfl, .inl ⟨rfl, affordableOrders_eq_empty (.inr hshort)⟩⟩
  · have hopen : 0 ≤ rawOpen := hprice.resolve_right (by omega)
    have hexecution : 0 ≤ rawOpen * executionPriceFactor .exact .buy costs :=
      mul_nonneg hopen (executionPriceFactor_nonneg .buy)
    have hlegal : ∀ units, 0 < units → board.Legal (board.minimum + (units - 1) * board.step) :=
      fun units hunits => (Board.legal_iff_units hboard).mpr ⟨units, hunits, rfl⟩
    obtain ⟨units, hunits, -, hhigh, hfound, hnone⟩ := affordableUnits_greatest
      (fun units => isAffordable .exact board
        (rawOpen * executionPriceFactor .exact .buy costs) netCash costs
        (board.minimum + (units - 1) * board.step))
      (fun units => PaidBy board (rawOpen * executionPriceFactor .exact .buy costs) netCash
        costs (board.minimum + (units - 1) * board.step))
      ((quantity - board.minimum) / board.step + 1) 0
      ((quantity - board.minimum) / board.step + 1) (Nat.zero_le _) (Nat.sub_le _ _)
      (fun units hpos _ => by
        obtain ⟨outlay, -, houtlay, -, -⟩ :=
          buyOutlay_mono costs hexecution (hlegal units hpos) (hlegal units hpos) le_rfl
        rw [isAffordable_exact houtlay]
        simp only [paidBy_iff houtlay])
      (fun u v hu huv _ hpaid => by
        obtain ⟨outlay, outlay', houtlay, houtlay', hle⟩ := buyOutlay_mono costs
          hexecution (hlegal u hu) (hlegal v (by omega))
          (Nat.add_le_add_left (Nat.mul_le_mul_right _ (by omega)) _)
        exact (paidBy_iff houtlay).mpr (hle.trans ((paidBy_iff houtlay').mp hpaid)))
    have hfits : ∀ units, 0 < units →
        (board.minimum + (units - 1) * board.step ≤ quantity ↔
          units ≤ (quantity - board.minimum) / board.step + 1) := by
      intro units hpos
      rw [← Nat.sub_le_iff_le_add, Nat.le_div_iff_mul_le board.step_pos]
      omega
    refine ⟨if units = 0 then 0 else board.minimum + (units - 1) * board.step, ?_, ?_⟩
    · rw [if_neg hshort, hunits]
      rfl
    · -- Orders above the result would have been found by the search.
      have habove : ∀ order ∈ affordableOrders board quantity
          (rawOpen * executionPriceFactor .exact .buy costs) netCash costs,
          ∃ u, 0 < u ∧ u ≤ units ∧ order = board.minimum + (u - 1) * board.step := by
        rintro order ⟨horder, hle, hpaid⟩
        obtain ⟨u, hpos, rfl⟩ := (Board.legal_iff_units hboard).mp horder
        refine ⟨u, hpos, not_lt.mp fun hlt => ?_, rfl⟩
        exact hnone u hlt ((hfits u hpos).mp hle) hpaid
      by_cases hzero : units = 0
      · refine .inl ⟨if_pos hzero, Set.eq_empty_iff_forall_notMem.mpr fun order horder => ?_⟩
        obtain ⟨u, hpos, hle, -⟩ := habove order horder
        omega
      · rw [if_neg hzero]
        refine .inr ⟨by omega, ⟨hlegal units (by omega), ?_, hfound.resolve_left hzero⟩, ?_⟩
        · exact (hfits units (by omega)).mpr hhigh
        · intro order horder
          obtain ⟨u, hpos, hle, rfl⟩ := habove order horder
          exact Nat.add_le_add_left (Nat.mul_le_mul_right _ (by omega)) _

/-- A buy that the cash pays for leaves no debt. -/
lemma paid_netCash_nonneg {data : MarketData} {account : Account} {order : Order}
    {outcome : OrderOutcome} {price : ExecutionPrice} {profile : InstrumentProfile}
    (hside : order.side = .buy)
    (hprice : data.executionPrices order.context.session order.instrument = some price)
    (hprofile : data.instruments order.instrument = some profile)
    (hcash : 0 ≤ account.netCash)
    (hpaid : PaidBy profile.board (price.rawOpen * executionPriceFactor .exact .buy costs)
      account.netCash costs order.quantity)
    (h : executeOrder .exact data costs account order = .ok outcome) :
    0 ≤ outcome.settlement.netCash := by
  obtain ⟨outlay, hle, houtlay⟩ := hpaid
  refine buy_netCash_nonneg hcash hside (Order.buyFunded_exact data costs account order) hprice
    hprofile ?_ h
  rw [Rounding.exact_accounting, isAffordable_exact houtlay, decide_eq_true hle]

lemma paidBy_nonneg {board : Board} {executionPrice netCash : ℚ} {quantity : ℕ}
    (hprice : 0 ≤ executionPrice) (h : PaidBy board executionPrice netCash costs quantity) :
    0 ≤ netCash := by
  obtain ⟨outlay, hle, houtlay⟩ := h
  unfold buyOutlay at houtlay
  obtain ⟨children, -, houtlay⟩ := bind_ok_iff.mp houtlay
  obtain rfl := Except.ok.inj houtlay
  have hcost : 0 ≤ (children.map (exactChildCost costs executionPrice)).sum := by
    refine List.sum_nonneg fun cost hcost => ?_
    obtain ⟨child, -, rfl⟩ := List.mem_map.mp hcost
    exact exactChildCost_nonneg hprice child
  have hnotional : 0 ≤ (quantity : ℚ) * executionPrice :=
    mul_nonneg (Nat.cast_nonneg quantity) hprice
  linarith

/-- In exact arithmetic the affordable quantity is the greatest order up to the requested one that
the board takes and the cash pays for, or zero where there is none. A buy of it leaves no debt.
Callers request nothing of an instrument without a positive Open. -/
theorem affordable_quantity_exact (costs : Costs) (board : Board) (quantity : ℕ)
    (rawOpen netCash : ℚ) (hprice : 0 ≤ rawOpen ∨ quantity = 0) :
    (board ≠ .other → ∃ result,
      affordableQuantity .exact board quantity rawOpen netCash costs = .ok result) ∧
    ∀ result, affordableQuantity .exact board quantity rawOpen netCash costs = .ok result →
      IsGreatestOrZero (affordableOrders board quantity
        (rawOpen * executionPriceFactor .exact .buy costs) netCash costs) result ∧
      ∀ (data : MarketData) (account : Account) (order : Order) (price : ExecutionPrice)
        (profile : InstrumentProfile) (outcome : OrderOutcome),
        data.executionPrices order.context.session order.instrument = some price →
        price.rawOpen = rawOpen → data.instruments order.instrument = some profile →
        profile.board = board → account.netCash = netCash → order.side = .buy →
        order.quantity = result → 0 < result →
        executeOrder .exact data costs account order = .ok outcome →
        0 ≤ outcome.settlement.netCash := by
  refine ⟨fun hboard => ?_, fun result hresult => ?_⟩
  · obtain ⟨result, hresult, -⟩ := affordableQuantity_greatest costs netCash hboard hprice
    exact ⟨result, hresult⟩
  have hgreatest : IsGreatestOrZero (affordableOrders board quantity
      (rawOpen * executionPriceFactor .exact .buy costs) netCash costs) result := by
    by_cases hboard : board = .other
    · -- An unknown board is only passed where nothing is requested.
      refine .inl ⟨?_, affordableOrders_eq_empty (.inl hboard)⟩
      by_contra hne
      obtain ⟨-, hcheck⟩ := affordableQuantity_spec hresult (by omega)
      obtain ⟨children, hsplit, -⟩ := isAffordable_spec hcheck
      simp [splitChildOrders, hboard, Board.cap, found, bind, Except.bind] at hsplit
    · obtain ⟨result', hresult', hgreatest⟩ :=
        affordableQuantity_greatest costs netCash hboard hprice
      rwa [Except.ok.inj (hresult.symm.trans hresult')]
  refine ⟨hgreatest, ?_⟩
  rintro data account order price profile outcome hdata rfl hprofile rfl rfl hside rfl hpos hexecute
  have hpaid : PaidBy profile.board (price.rawOpen * executionPriceFactor .exact .buy costs)
      account.netCash costs order.quantity := by
    rcases hgreatest with ⟨hzero, -⟩ | ⟨-, ⟨-, -, hpaid⟩, -⟩
    · omega
    · exact hpaid
  have hopen : 0 ≤ price.rawOpen := by
    refine hprice.resolve_right fun hzero => ?_
    have hle := (affordableQuantity_spec hresult hpos).1
    omega
  exact paid_netCash_nonneg hside hdata hprofile
    (paidBy_nonneg (mul_nonneg hopen (executionPriceFactor_nonneg .buy)) hpaid) hpaid hexecute

/-- An order of a lot at 10 per share, of which the cash pays for nine hundred. -/
theorem affordable_quantity_exact_lots :
    IsGreatestOrZero (affordableOrders .main 1000
      (10 * executionPriceFactor .exact .buy (sampleCosts 5)) 9500 (sampleCosts 5)) 900 :=
  ((affordable_quantity_exact (sampleCosts 5) .main 1000 10 9500 (.inl (by norm_num))).2 900
    (by decide +kernel)).1

end ThesisTrace.Strategy
