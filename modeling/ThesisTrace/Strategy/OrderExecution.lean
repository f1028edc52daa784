import Mathlib.Tactic.Linarith
import Mathlib.Tactic.Positivity
import Mathlib.Algebra.Order.Floor.Ring
import ThesisTrace.Strategy.Session

/-!
# What orders do

One specification for each operation of an order: its child orders add up to its quantity, its
cost is not negative, a bought quantity passed the affordability check, and a completed order
either left the account unchanged or settled at the Open of its session.
-/

namespace ThesisTrace.Strategy
open Transaction

variable {E : Type} {R : Rounding} {costs : Costs} {data : MarketData}

/-! ### Roundings -/

lemma Rounding.accounting_zero (R : Rounding) : R.accounting 0 = 0 := by
  have h := R.accounting_ambient 0
  rwa [R.ambient_zero] at h

lemma Rounding.ambient_nonneg {x : ℚ} (h : 0 ≤ x) : 0 ≤ R.ambient x := by
  rw [← R.ambient_zero]
  exact R.ambient_mono h

lemma Rounding.ambient_nonpos {x : ℚ} (h : x ≤ 0) : R.ambient x ≤ 0 := by
  rw [← R.ambient_zero]
  exact R.ambient_mono h

lemma Rounding.accounting_nonneg {x : ℚ} (h : 0 ≤ x) : 0 ≤ R.accounting x := by
  rw [← R.accounting_zero]
  exact R.accounting_mono h

@[simp] lemma Rounding.money_ambient (x : ℚ) : R.money (R.ambient x) = R.ambient x :=
  R.accounting_ambient x

lemma Rounding.divide_ok_iff {a b c : ℚ} :
    R.divide a b = .ok c ↔ b ≠ 0 ∧ R.accounting (a / b) = c := by
  unfold Rounding.divide
  split <;> simp_all

/-! ### Cost -/

lemma executionPriceFactor_nonneg (side : Side) : 0 ≤ executionPriceFactor R side costs := by
  have hbps := costs.slippageBps_nonneg
  have hlt := costs.slippageBps_lt
  cases side with
  | buy =>
    have hinner : 0 ≤ R.accounting (10000 + costs.slippageBps) :=
      Rounding.accounting_nonneg (by linarith)
    exact Rounding.accounting_nonneg (by positivity)
  | sell =>
    have hinner : 0 ≤ R.accounting (10000 - costs.slippageBps) :=
      Rounding.accounting_nonneg (by linarith)
    exact Rounding.accounting_nonneg (by positivity)

lemma commission_nonneg (notional : ℚ) (side : Side) :
    0 ≤ (transactionCostParts R notional side costs).commission :=
  le_max_of_le_right costs.commissionMin_nonneg

lemma transactionCost_nonneg {notional : ℚ} (h : 0 ≤ notional) (side : Side) :
    0 ≤ transactionCost R notional side costs := by
  have hcommission : 0 ≤ (transactionCostParts R notional side costs).commission :=
    commission_nonneg notional side
  have htransfer : 0 ≤ (transactionCostParts R notional side costs).transferFee :=
    Rounding.accounting_nonneg (mul_nonneg h costs.transferFeeRate_nonneg)
  have hstamp : 0 ≤ (transactionCostParts R notional side costs).stampDuty := by
    cases side with
    | buy => exact le_rfl
    | sell => exact Rounding.accounting_nonneg (mul_nonneg h costs.stampDutySellRate_nonneg)
  have hfirst := Rounding.accounting_nonneg (R := R) hcommission
  have hsecond := Rounding.accounting_nonneg (R := R) (add_nonneg hfirst hstamp)
  exact Rounding.accounting_nonneg (add_nonneg hsecond htransfer)

lemma ambientSum_foldl_nonneg {values : List ℚ} {total : ℚ} (h : ∀ x ∈ values, 0 ≤ x)
    (htotal : 0 ≤ total) : 0 ≤ values.foldl (fun total x => R.ambient (total + x)) total := by
  induction values generalizing total with
  | nil => exact htotal
  | cons x values ih =>
    rw [List.foldl_cons]
    apply ih fun y hy => h y (List.mem_cons_of_mem _ hy)
    exact Rounding.ambient_nonneg (add_nonneg htotal (h x List.mem_cons_self))

lemma ambient_foldl {values : List ℚ} {total : ℚ} (htotal : R.ambient total = total) :
    R.ambient (values.foldl (fun total x => R.ambient (total + x)) total)
      = values.foldl (fun total x => R.ambient (total + x)) total := by
  induction values generalizing total with
  | nil => exact htotal
  | cons x values ih => exact ih (R.ambient_ambient _)

/-- A sum in the default context is rounded to itself. -/
lemma ambient_ambientSum (values : List ℚ) :
    R.ambient (R.ambientSum values) = R.ambientSum values :=
  ambient_foldl R.ambient_zero

/-- The child loop adds up what the affordability check adds up. -/
lemma totalChildCost_eq (side : Side) (executionPrice : ℚ) (firstShare : ℕ)
    (quantities : List ℕ) :
    totalChildCost R (childCosts R costs side executionPrice firstShare quantities)
      = R.ambientSum (quantities.map fun quantity : ℕ =>
        transactionCost R (R.money (R.ambient (quantity * executionPrice))) side costs) := by
  unfold totalChildCost Rounding.ambientSum
  generalize (0 : ℚ) = total
  induction quantities generalizing total firstShare with
  | nil => rfl
  | cons quantity quantities ih =>
    simp only [childCosts, List.foldl_cons, List.map_cons]
    rw [ih, Rounding.money_ambient]
    rfl

lemma totalChildCost_nonneg {executionPrice : ℚ} (h : 0 ≤ executionPrice) (side : Side)
    (firstShare : ℕ) (quantities : List ℕ) :
    0 ≤ totalChildCost R (childCosts R costs side executionPrice firstShare quantities) := by
  rw [totalChildCost_eq]
  apply ambientSum_foldl_nonneg _ le_rfl
  intro x hx
  obtain ⟨quantity, -, rfl⟩ := List.mem_map.mp hx
  apply transactionCost_nonneg
  exact Rounding.accounting_nonneg (Rounding.ambient_nonneg (by positivity))

/-! ### Quantities -/

lemma legalOrderQuantity_le {board : Board} {target : ℤ} {complete : Bool} {quantity : ℕ}
    (h : legalOrderQuantity board target complete = .ok quantity) : quantity ≤ target.toNat := by
  unfold legalOrderQuantity at h
  cases complete <;> cases board <;>
    simp only [Bool.false_eq_true, if_true, if_false, Except.ok.injEq, reduceCtorEq] at h <;>
    subst h <;> first | omega | (split <;> omega)

lemma fullChildren_sum (cap fuel remaining : ℕ) :
    (fullChildren cap fuel remaining).1.sum + (fullChildren cap fuel remaining).2 = remaining := by
  induction fuel generalizing remaining with
  | zero => simp [fullChildren]
  | succ fuel ih =>
    unfold fullChildren
    split
    · next hlt =>
      have hrest := ih (remaining - cap)
      simp only [List.sum_cons]
      omega
    · simp

lemma fullChildren_eq_cap {cap fuel remaining : ℕ} :
    ∀ child ∈ (fullChildren cap fuel remaining).1, child = cap := by
  induction fuel generalizing remaining with
  | zero => simp [fullChildren]
  | succ fuel ih =>
    unfold fullChildren
    split
    · simp only [List.mem_cons, forall_eq_or_imp, true_and]
      exact ih
    · simp

lemma lastChild_sum {children : List ℕ} {cap remaining minimum : ℕ}
    (hcap : ∀ child ∈ children, child = cap) (h : minimum ≤ cap) :
    (lastChild children remaining minimum).sum = children.sum + remaining := by
  unfold lastChild
  split
  · next hne =>
    have hlast := hcap _ (List.getLast_mem hne.1)
    have hsum : children.sum = children.dropLast.sum + cap := by
      conv_lhs => rw [← List.dropLast_append_getLast hne.1]
      simp [hlast]
    have hgetD : children.getLastD 0 = cap := by
      rw [List.getLastD_eq_getLast?, List.getLast?_eq_some_getLast hne.1, hlast]
      rfl
    simp only [List.sum_append, List.sum_cons, List.sum_nil, hgetD, hsum]
    omega
  · simp

/-- Child orders add up to their order. -/
theorem splitChildOrders_sum {board : Board} {quantity : ℕ} {complete : Bool} {children : List ℕ}
    (h : splitChildOrders board quantity complete = .ok children) : children.sum = quantity := by
  unfold splitChildOrders at h
  simp only [bind_ok_iff, found_ok_iff, require_ok_iff] at h
  obtain ⟨cap, hcap, -, -, h⟩ := h
  have hsum := fullChildren_sum cap quantity quantity
  have hmin : board.minimum ≤ cap := by
    cases board <;> simp_all [Board.cap, Board.minimum] <;> omega
  split at h
  · rw [pure_ok_iff] at h
    subst h
    omega
  · split at h
    · rw [pure_ok_iff] at h
      subst h
      simpa using hsum
    · rw [pure_ok_iff] at h
      subst h
      rw [lastChild_sum fullChildren_eq_cap hmin]
      exact hsum

/-! ### Affordability -/

lemma affordableUnits_spec {affordable : ℕ → Except StrategyError Bool} {fuel low high units : ℕ}
    (hle : low ≤ high) (h : affordableUnits affordable fuel low high = .ok units) :
    (units = low ∨ affordable units = .ok true) ∧ units ≤ high := by
  induction fuel generalizing low high with
  | zero =>
    cases h
    exact ⟨.inl rfl, hle⟩
  | succ fuel ih =>
    unfold affordableUnits at h
    split at h
    · next hlt =>
      simp only [bind_ok_iff] at h
      obtain ⟨passed, hpassed, h⟩ := h
      split at h
      · next htrue =>
        have hnext := ih (by omega) h
        rcases hnext.1 with heq | hok
        · rw [htrue] at hpassed
          exact ⟨.inr (heq ▸ hpassed), hnext.2⟩
        · exact ⟨.inr hok, hnext.2⟩
      · have hnext := ih (by omega) h
        exact ⟨hnext.1, by omega⟩
    · cases h
      exact ⟨.inl rfl, hle⟩

/-- A positive affordable quantity passed the check, and does not exceed the legal one. -/
theorem affordableQuantity_spec {board : Board} {legal quantity : ℕ} {rawOpen netCash : ℚ}
    (h : affordableQuantity R board legal rawOpen netCash costs = .ok quantity)
    (hpos : 0 < quantity) :
    quantity ≤ legal ∧ isAffordable R board
      (R.accounting (rawOpen * executionPriceFactor R .buy costs)) netCash costs quantity
        = .ok true := by
  unfold affordableQuantity at h
  simp only at h
  split at h
  · simp only [pure_ok_iff] at h
    omega
  · next hmin =>
    simp only [bind_ok_iff, pure_ok_iff] at h
    obtain ⟨units, hunits, h⟩ := h
    have hspec := affordableUnits_spec (Nat.zero_le _) hunits
    split at h
    · omega
    · next hne =>
      subst h
      refine ⟨?_, hspec.1.resolve_left hne⟩
      have hdiv := Nat.div_mul_le_self (legal - board.minimum) board.step
      have hmul : (units - 1) * board.step ≤ (legal - board.minimum) / board.step * board.step :=
        Nat.mul_le_mul_right _ (by omega)
      omega

/-- What the affordability check says about a buy that is then executed. -/
lemma isAffordable_spec {board : Board} {executionPrice netCash : ℚ} {quantity : ℕ}
    (h : isAffordable R board executionPrice netCash costs quantity = .ok true) :
    ∃ children, splitChildOrders board quantity false = .ok children
      ∧ R.ambient (R.money (R.ambient (quantity * executionPrice))
          + totalChildCost R (childCosts R costs .buy executionPrice 0 children)) ≤ netCash := by
  unfold isAffordable at h
  simp only [bind_ok_iff, pure_ok_iff, decide_eq_true_eq] at h
  obtain ⟨children, hchildren, hle⟩ := h
  refine ⟨children, hchildren, ?_⟩
  rw [totalChildCost_eq]
  exact hle

/-! ### Execution -/

/-- A completed order was rejected and changed nothing, or was filled at the Open. -/
theorem executeOrder_cases {account : Account} {order : Order} {outcome : OrderOutcome}
    (h : executeOrder R data costs account order = .ok outcome) :
    (∃ reason, outcome = rejectOrder account order reason)
      ∨ ∃ price, data.executionPrices order.context.session order.instrument = some price
        ∧ fillOrder R data costs account order price = .ok outcome := by
  unfold executeOrder at h
  simp only [bind_ok_iff, require_ok_iff, exists_const] at h
  obtain ⟨-, h⟩ := h
  split at h
  · next reason _ =>
    rw [pure_ok_iff] at h
    exact .inl ⟨reason, h.symm⟩
  · simp only [bind_ok_iff, found_ok_iff] at h
    exact .inr h

/-- How a filled buy settles. -/
theorem fillOrder_buy {account : Account} {order : Order} {price : ExecutionPrice}
    {outcome : OrderOutcome} (hside : order.side = .buy)
    (h : fillOrder R data costs account order price = .ok outcome) :
    ∃ profile children unitPrice addedUnits, data.instruments order.instrument = some profile
      ∧ splitChildOrders profile.board order.quantity false = .ok children
      ∧ R.divide price.adjustedOpen price.rawOpen = .ok unitPrice
      ∧ R.divide order.quantity unitPrice = .ok addedUnits
      ∧ outcome.cost = totalChildCost R (childCosts R costs .buy
          (R.accounting (price.rawOpen * executionPriceFactor R .buy costs)) 0 children)
      ∧ outcome.settlement =
        let rawNotional := R.money (R.ambient (order.quantity
          * R.accounting (price.rawOpen * executionPriceFactor R .buy costs)))
        { positions := OrderedMap.set account.positions order.instrument
            (boughtPosition R order.context.session order.quantity rawNotional outcome.cost
              addedUnits price.adjustedOpen (account.positions.lookup order.instrument))
          grossCash := R.money (R.ambient (account.grossCash - rawNotional))
          netCash := R.money (R.ambient
            (R.ambient (account.netCash - rawNotional) - outcome.cost)) } := by
  unfold fillOrder at h
  simp only [hside, bind_ok_iff, found_ok_iff, pure_ok_iff, reduceCtorEq, false_and,
    decide_false] at h
  obtain ⟨profile, hprofile, children, hchildren, settlement, hsettle, rfl⟩ := h
  rw [splitChildOrders_sum hchildren] at hsettle
  unfold settleBuy at hsettle
  simp only [bind_ok_iff, pure_ok_iff] at hsettle
  obtain ⟨unitPrice, hunit, addedUnits, hadded, rfl⟩ := hsettle
  exact ⟨profile, children, unitPrice, addedUnits, hprofile, hchildren, hunit, hadded, rfl, rfl⟩

/-- How a filled sell settles: the whole position leaves, or a part of it. -/
theorem fillOrder_sell {account : Account} {order : Order} {price : ExecutionPrice}
    {outcome : OrderOutcome} (hside : order.side = .sell)
    (h : fillOrder R data costs account order price = .ok outcome) :
    ∃ profile children position removed, data.instruments order.instrument = some profile
      ∧ splitChildOrders profile.board order.quantity
          (decide ((account.positions.lookup order.instrument).map Position.executionShares
            = some (order.quantity : ℤ))) = .ok children
      ∧ account.positions.lookup order.instrument = some position
      ∧ removedUnits R position order.quantity = .ok removed
      ∧ outcome.cost = totalChildCost R (childCosts R costs .sell
          (R.accounting (price.rawOpen * executionPriceFactor R .sell costs)) 0 children)
      ∧ outcome.settlement.grossCash = R.money (R.ambient (account.grossCash
          + R.accounting (R.accounting (removed * price.adjustedOpen)
            * executionPriceFactor R .sell costs)))
      ∧ outcome.settlement.netCash = R.money (R.ambient (R.ambient (account.netCash
          + R.accounting (R.accounting (removed * price.adjustedOpen)
            * executionPriceFactor R .sell costs)) - outcome.cost))
      ∧ ((position.executionShares = order.quantity
            ∧ outcome.settlement.positions = account.positions.erase order.instrument)
          ∨ (position.executionShares ≠ order.quantity
            ∧ ∃ rest, reducedPosition R position order.quantity removed price.adjustedOpen
                = .ok rest
              ∧ outcome.settlement.positions
                = OrderedMap.set account.positions order.instrument rest)) := by
  unfold fillOrder at h
  simp only [hside, bind_ok_iff, found_ok_iff, pure_ok_iff, true_and] at h
  obtain ⟨profile, hprofile, children, hchildren, settlement, hsettle, rfl⟩ := h
  rw [splitChildOrders_sum hchildren] at hsettle
  unfold settleSell at hsettle
  simp only [bind_ok_iff, found_ok_iff, pure_ok_iff] at hsettle
  obtain ⟨position, hposition, removed, hremoved, positions, hpositions, rfl⟩ := hsettle
  refine ⟨profile, children, position, removed, hprofile, hchildren, hposition, hremoved, rfl, rfl,
    rfl, ?_⟩
  split at hpositions
  · next heq =>
    exact .inl ⟨heq, (Except.ok.inj hpositions).symm⟩
  · next hne =>
    rw [map_ok_iff] at hpositions
    obtain ⟨rest, hrest, heq⟩ := hpositions
    exact .inr ⟨hne, rest, hrest, heq.symm⟩

/-! ### Intents -/

lemma reductionShares_le {position : Position} {current monetary : ℚ} {shares : ℤ}
    (h : reductionShares R costs position current monetary = .ok shares) :
    shares ≤ position.executionShares := by
  unfold reductionShares at h
  simp only [bind_ok_iff, pure_ok_iff] at h
  obtain ⟨raw, -, rfl⟩ := h
  exact min_le_left _ _

lemma sellUnrounded_le {terms : TargetTerms} {id : InstrumentId} {position : Position}
    {current desired : ℚ} {unrounded : ℤ}
    (h : sellUnrounded R terms id position current desired = .ok unrounded) :
    unrounded ≤ position.executionShares := by
  unfold sellUnrounded at h
  simp only [bind_ok_iff] at h
  obtain ⟨shares, hshares, h⟩ := h
  have hle : shares ≤ position.executionShares := by
    split at hshares
    · exact (Except.ok.inj hshares).ge
    · exact reductionShares_le hshares
  split at h <;> rw [pure_ok_iff] at h <;> subst h
  · apply max_le hle
    omega
  · exact hle

/-- A sell never exceeds the holding. -/
theorem sellIntent_le {terms : TargetTerms} {marks : Marks} {id : InstrumentId}
    {position : Position} {intent : SellIntent}
    (h : sellIntent R terms marks id position = .ok (some intent)) :
    intent.legalQuantity ≤ position.executionShares.toNat := by
  unfold sellIntent at h
  split at h
  · cases h
  · dsimp only at h
    split at h
    · cases h
    · simp only [bind_ok_iff, found_ok_iff, pure_ok_iff, Option.some.injEq] at h
      obtain ⟨unrounded, hunrounded, profile, -, legal, hlegal, rfl⟩ := h
      have hle := legalOrderQuantity_le hlegal
      have hshares := sellUnrounded_le hunrounded
      exact hle.trans (Int.toNat_le_toNat hshares)

/-- A sized buy has an Open; when it submits shares, its raw price is positive and the
quantity is affordable. -/
theorem buyIntent_sized {terms : TargetTerms} {netCash deficit d : ℚ} {id : InstrumentId}
    {unrounded : ℤ} {legal quantity : ℕ}
    (h : buyIntent R terms netCash deficit id = .ok (.sized d unrounded legal quantity))
    (hpos : 0 < quantity) :
    ∃ price profile, terms.data.executionPrices terms.session id = some price
      ∧ terms.data.instruments id = some profile ∧ 0 < price.rawOpen
      ∧ isAffordable R profile.board
        (R.accounting (price.rawOpen * executionPriceFactor R .buy terms.costs)) netCash
        terms.costs quantity = .ok true := by
  unfold buyIntent at h
  split at h
  · split at h
    · cases h
    · simp only [bind_ok_iff, found_ok_iff] at h
      obtain ⟨profile, -, h⟩ := h
      split at h
      · cases h
      · cases h
      · split at h <;> cases h
  · next price hprice =>
    simp only [bind_ok_iff, found_ok_iff, pure_ok_iff, BuyIntent.sized.injEq] at h
    obtain ⟨_, -, profile, hprofile, legal', hlegal, quantity', hquantity, -, -, rfl, rfl⟩ := h
    obtain ⟨hle, haffordable⟩ := affordableQuantity_spec hquantity hpos
    refine ⟨price, profile, hprice, hprofile, ?_, haffordable⟩
    by_contra hraw
    rw [if_neg hraw] at hlegal
    have hzero := Except.ok.inj hlegal
    omega

end ThesisTrace.Strategy
