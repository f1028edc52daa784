import ThesisTrace.Strategy.FillConservation
import ThesisTrace.Strategy.TakeProfit
import ThesisTrace.Strategy.TargetReduction

/-!
# What a session does to a holding

A limited holding is kept, reduced by what the session sold of it, or gone. The moves are found
order by order: an instrument is sold at most once in a session, and the orders of the other
instruments leave it alone.
-/

namespace ThesisTrace.Risk
open Strategy Transaction

variable {F E : Type} {data : MarketData} {costs : Costs}

/-! ### Sold quantities -/

/-- The sales of an instrument among fills. -/
def salesOf (fills : List FillEvent) (id : InstrumentId) : List FillEvent :=
  fills.filter fun fill => fill.childOrder.side = .sell ∧ fill.childOrder.instrument = id

lemma salesOf_append (fills more : List FillEvent) (id : InstrumentId) :
    salesOf (fills ++ more) id = salesOf fills id ++ salesOf more id :=
  List.filter_append ..

lemma soldQuantity_none {fills : List FillEvent} {id : InstrumentId} (h : salesOf fills id = []) :
    soldQuantity fills id = none :=
  if_pos h

lemma soldQuantity_some {fills : List FillEvent} {id : InstrumentId} (h : salesOf fills id ≠ []) :
    soldQuantity fills id
      = some ((salesOf fills id).map fun fill => fill.childOrder.quantity).sum :=
  if_neg h

lemma soldQuantity_congr {fills fills' : List FillEvent} {id : InstrumentId}
    (h : salesOf fills id = salesOf fills' id) : soldQuantity fills id = soldQuantity fills' id := by
  change (if salesOf fills id = [] then none else _) = (if salesOf fills' id = [] then none else _)
  rw [← salesOf, ← salesOf, h]

/-! ### Held positions -/

/-- What every position of an account satisfies: it has shares, units and a mark. -/
structure HeldPosition (position : Position) : Prop where
  shares : 0 < position.executionShares
  units : 0 < position.adjustedUnits
  mark : 0 ≤ position.lastAdjustedPrice

def AllHeld (positions : Positions) : Prop :=
  ∀ id position, positions.lookup id = some position → HeldPosition position

lemma AllHeld.set {positions : Positions} (h : AllHeld positions) (id : InstrumentId)
    {position : Position} (hposition : HeldPosition position) :
    AllHeld (OrderedMap.set positions id position) := by
  intro id' position' hlookup
  rw [OrderedMap.lookup_set] at hlookup
  split_ifs at hlookup with heq
  · cases hlookup
    exact hposition
  · exact h id' position' hlookup

lemma AllHeld.erase {positions : Positions} (h : AllHeld positions) (id : InstrumentId) :
    AllHeld (positions.erase id) := by
  intro id' position' hlookup
  by_cases heq : id' = id
  · rw [heq, AList.lookup_erase] at hlookup
    cases hlookup
  · rw [AList.lookup_erase_ne heq] at hlookup
    exact h id' position' hlookup

/-- Opens of positive prices. -/
def Priced (data : MarketData) : Prop :=
  ∀ session id price, data.executionPrices session id = some price → 0 < price.rawOpen

lemma openMark_price (hdata : Priced data) {session : Session} {id : InstrumentId}
    {position marked : Position} (h : HeldPosition position)
    (hmarked : (openMark data session id).position position = some marked) :
    HeldPosition marked ∧ marked.executionShares = position.executionShares
      ∧ marked.adjustedUnits = position.adjustedUnits
      ∧ marked.holdingCycleStartedSession = position.holdingCycleStartedSession := by
  unfold openMark at hmarked
  cases hprice : data.executionPrices session id with
  | some price =>
    rw [hprice] at hmarked
    cases hmarked
    exact ⟨⟨h.shares, h.units, price.adjusted_nonneg (hdata session id price hprice).le⟩, rfl, rfl,
      rfl⟩
  | none =>
    obtain ⟨mark, heq⟩ := OpenMark.position_some hmarked
    rw [hprice] at hmarked
    dsimp only at hmarked
    have hsame : marked = position := by
      split at hmarked
      · exact (Option.some.inj hmarked).symm
      · split at hmarked
        · exact (Option.some.inj hmarked).symm
        · split at hmarked
          · cases hmarked
          · exact (Option.some.inj hmarked).symm
    subst hsame
    exact ⟨h, rfl, rfl, rfl⟩

/-! ### Moves -/

/-- What became of a holding, against what the fills say was sold of it. -/
inductive HoldingMove (before : Position) : Option Position → Option ℕ → Prop
  | kept {after : Position} (hshares : after.executionShares = before.executionShares)
      (hunits : after.adjustedUnits = before.adjustedUnits)
      (hstarted : after.holdingCycleStartedSession = before.holdingCycleStartedSession) :
      HoldingMove before (some after) none
  | reduced {after : Position} {quantity : ℕ} {removed : ℚ} (hpos : 0 < quantity)
      (hlt : (quantity : ℤ) < before.executionShares)
      (hremoved : removedUnits .decimal before quantity = .ok removed)
      (hshares : after.executionShares = before.executionShares - quantity)
      (hunits : after.adjustedUnits = Rounding.decimal.ambient (before.adjustedUnits - removed))
      (hstarted : after.holdingCycleStartedSession = before.holdingCycleStartedSession) :
      HoldingMove before (some after) (some quantity)
  | gone (sold : Option ℕ) : HoldingMove before none sold

lemma HoldingMove.refl (position : Position) : HoldingMove position (some position) none :=
  .kept rfl rfl rfl

lemma HoldingMove.started {before after : Position} {sold : Option ℕ}
    (h : HoldingMove before (some after) sold) :
    after.holdingCycleStartedSession = before.holdingCycleStartedSession := by
  cases h with
  | kept _ _ hstarted => exact hstarted
  | reduced _ _ _ _ _ hstarted => exact hstarted

/-- A mark does not change what became of a holding. -/
lemma HoldingMove.mark {before : Position} {after marked : Option Position} {sold : Option ℕ}
    (h : HoldingMove before after sold)
    (hmarked : ∀ position, marked = some position → ∃ old, after = some old
      ∧ position.executionShares = old.executionShares
      ∧ position.adjustedUnits = old.adjustedUnits
      ∧ position.holdingCycleStartedSession = old.holdingCycleStartedSession) :
    HoldingMove before marked sold := by
  cases marked with
  | none => exact .gone sold
  | some position =>
    obtain ⟨old, rfl, hshares, hunits, hstarted⟩ := hmarked position rfl
    cases h with
    | kept hshares' hunits' hstarted' =>
      exact .kept (hshares.trans hshares') (hunits.trans hunits') (hstarted.trans hstarted')
    | reduced hpos hlt hremoved hshares' hunits' hstarted' =>
      exact .reduced hpos hlt hremoved (hshares.trans hshares') (hunits.trans hunits')
        (hstarted.trans hstarted')

/-- A mark before the session does not change it either. -/
lemma HoldingMove.of_same {before marked : Position} {after : Option Position} {sold : Option ℕ}
    (h : HoldingMove marked after sold)
    (hshares : marked.executionShares = before.executionShares)
    (hunits : marked.adjustedUnits = before.adjustedUnits)
    (hstarted : marked.holdingCycleStartedSession = before.holdingCycleStartedSession) :
    HoldingMove before after sold := by
  cases h with
  | kept hshares' hunits' hstarted' =>
    exact .kept (hshares'.trans hshares) (hunits'.trans hunits) (hstarted'.trans hstarted)
  | reduced hpos hlt hremoved hshares' hunits' hstarted' =>
    unfold removedUnits at hremoved
    rw [hshares, hunits] at hremoved
    exact .reduced hpos (hshares ▸ hlt) hremoved (hshares ▸ hshares') (hunits ▸ hunits')
      (hstarted'.trans hstarted)
  | gone => exact .gone _

/-! ### Partial sales -/

/-- Holdings of fewer shares than their units have digits to tell apart. -/
def FewShares (positions : Positions) : Prop :=
  ∀ id position, positions.lookup id = some position → position.executionShares < 10 ^ 13

lemma removedUnits_eq {position : Position} {quantity : ℕ} {removed : ℚ}
    (hlt : (quantity : ℤ) < position.executionShares)
    (h : removedUnits .decimal position quantity = .ok removed) :
    removed = prorated .decimal position.adjustedUnits quantity position.executionShares.toNat := by
  unfold removedUnits at h
  rw [if_neg hlt.ne', Rounding.divide_ok_iff] at h
  obtain ⟨-, rfl⟩ := h
  have hne : quantity ≠ position.executionShares.toNat := by omega
  have hcast : ((position.executionShares.toNat : ℕ) : ℚ) = position.executionShares := by
    exact_mod_cast Int.toNat_of_nonneg (by omega)
  rw [prorated, if_neg hne, hcast]

lemma le_decimal_ambient {x : ℚ} (h : 0 ≤ x) :
    x * (1 - 1 / 10 ^ 27) ≤ Rounding.decimal.ambient x := by
  have hround := @DecimalContext.sub_le_roundTo 28 x (by decide) h
  calc x * (1 - 1 / 10 ^ 27) = x - x / 10 ^ 27 := by ring
    _ ≤ Rounding.decimal.ambient x := hround

/-- The units that a partial sale leaves, against the share of the units that stays. -/
lemma reducedUnits_bounds {position : Position} {quantity : ℕ} {removed : ℚ}
    (hunits : 0 < position.adjustedUnits) (hpos : 0 < quantity)
    (hlt : (quantity : ℤ) < position.executionShares) (hfew : position.executionShares < 10 ^ 13)
    (h : removedUnits .decimal position quantity = .ok removed) :
    let kept := Rounding.decimal.ambient (position.adjustedUnits - removed)
    let stays := position.adjustedUnits * (position.executionShares - quantity)
      / position.executionShares
    stays * (1 - 1 / 10 ^ 19) ≤ kept ∧ kept ≤ position.adjustedUnits ∧ 0 < kept := by
  obtain ⟨shares, hshares⟩ := Int.eq_ofNat_of_zero_le (show 0 ≤ position.executionShares by omega)
  have hremoved := removedUnits_eq hlt h
  rw [hshares, Int.toNat_natCast] at hremoved
  rw [hshares] at hlt hfew ⊢
  have hltN : quantity < shares := by omega
  have hfewN : shares < 10 ^ 13 := by omega
  have hsharesQ : (0 : ℚ) < shares := by exact_mod_cast (show 0 < shares by omega)
  obtain ⟨hlow, hhigh⟩ := @prorated_bounds position.adjustedUnits hunits quantity shares (by omega)
  rw [← hremoved] at hlow hhigh
  dsimp only
  generalize position.adjustedUnits = units at *
  have hsplit : units * ((shares : ℤ) - quantity : ℚ) / ((shares : ℤ) : ℚ)
      = units - units * quantity / shares := by
    push_cast
    field_simp
  rw [hsplit]
  -- both parts of the units are at least one share of them
  have hsold : units / 10 ^ 13 ≤ units * quantity / shares := by
    rw [div_le_div_iff₀ (by norm_num) hsharesQ]
    have hone : (1 : ℚ) ≤ quantity := by exact_mod_cast hpos
    have hbound : (shares : ℚ) ≤ 10 ^ 13 := by exact_mod_cast hfewN.le
    calc units * shares ≤ units * 10 ^ 13 := mul_le_mul_of_nonneg_left hbound hunits.le
      _ ≤ units * quantity * 10 ^ 13 := by
        have hscaled := mul_le_mul_of_nonneg_left hone hunits.le
        linarith
  have hstays : units / 10 ^ 13 ≤ units - units * quantity / shares := by
    rw [← hsplit, div_le_div_iff₀ (by norm_num) (by exact_mod_cast hsharesQ)]
    have hone : (1 : ℚ) ≤ (shares : ℤ) - quantity := by
      have hgap : (1 : ℤ) ≤ (shares : ℤ) - quantity := by omega
      exact_mod_cast hgap
    have hbound : ((shares : ℤ) : ℚ) ≤ 10 ^ 13 := by exact_mod_cast hfewN.le
    calc units * ((shares : ℤ) : ℚ) ≤ units * 10 ^ 13 := mul_le_mul_of_nonneg_left hbound hunits.le
      _ ≤ units * ((shares : ℤ) - quantity) * 10 ^ 13 := by
        have hscaled := mul_le_mul_of_nonneg_left hone hunits.le
        linarith
  generalize units * quantity / shares = sold at *
  have hleft : 0 ≤ units - removed := by linarith
  have hkeptLow := le_decimal_ambient hleft
  have hkeptHigh := decimal_ambient_le hleft
  have hlower : (units - sold) * (1 - 1 / 10 ^ 19)
      ≤ Rounding.decimal.ambient (units - removed) := by linarith
  refine ⟨hlower, ?_, ?_⟩
  · linarith
  · linarith

/-! ### Orders -/

lemma allocateFills_quantities {R : Rounding} {terms : FillTerms} (children : List ChildCost)
    (prior : Deltas) (net : ℚ) :
    (allocateFills R terms prior net children).map (fun fill => fill.childOrder.quantity)
      = children.map ChildCost.quantity := by
  induction children generalizing prior net with
  | nil => rfl
  | cons child children ih =>
    unfold allocateFills
    rw [List.map_cons, List.map_cons, ih]
    rfl

/-- The fills of an order that the market took are not empty and add up to its quantity. -/
lemma fillOrder_quantity {R : Rounding} {account : Account} {order : Order}
    {price : ExecutionPrice} {outcome : OrderOutcome} (hpos : 0 < order.quantity)
    (h : fillOrder R data costs account order price = .ok outcome) :
    outcome.fills ≠ []
      ∧ (outcome.fills.map fun fill => fill.childOrder.quantity).sum = order.quantity := by
  obtain ⟨quantities, hcovers, -, -, hfills⟩ := fillOrder_fills hpos h
  have hsum : (outcome.fills.map fun fill => fill.childOrder.quantity).sum = order.quantity := by
    rw [hfills, allocateFills_quantities, childCosts_quantities]
    have hall := hcovers.2
    rwa [Nat.zero_add] at hall
  refine ⟨?_, hsum⟩
  intro hnil
  rw [hnil, List.map_nil, List.sum_nil] at hsum
  omega

lemma salesOf_order {account : Account} {order : Order} {outcome : OrderOutcome}
    (h : executeOrder .decimal data costs account order = .ok outcome) (id : InstrumentId) :
    salesOf outcome.fills id =
      if order.side = .sell ∧ order.instrument = id then outcome.fills else [] := by
  obtain ⟨-, hfills⟩ := executeOrder_events h
  unfold salesOf
  split_ifs with hsale
  · rw [List.filter_eq_self]
    intro fill hfill
    obtain ⟨hinstrument, hside⟩ := hfills fill hfill
    rw [hinstrument, hside]
    exact decide_eq_true hsale
  · rw [List.filter_eq_nil_iff]
    intro fill hfill
    obtain ⟨hinstrument, hside⟩ := hfills fill hfill
    rw [hinstrument, hside, decide_eq_true_eq]
    exact hsale

/-- What a sale does to the holding that it sells. -/
lemma executeOrder_sale {account : Account} {order : Order} {outcome : OrderOutcome}
    {position : Position} (hside : order.side = .sell) (hpos : 0 < order.quantity)
    (hposition : account.positions.lookup order.instrument = some position)
    (hle : (order.quantity : ℤ) ≤ position.executionShares)
    (h : executeOrder .decimal data costs account order = .ok outcome) :
    HoldingMove position (outcome.settlement.positions.lookup order.instrument)
      (soldQuantity outcome.fills order.instrument) := by
  have hsales := salesOf_order h order.instrument
  rw [if_pos ⟨hside, rfl⟩] at hsales
  rcases executeOrder_cases h with ⟨reason, rfl⟩ | ⟨price, -, hfill⟩
  · rw [soldQuantity_none hsales]
    change HoldingMove position (account.positions.lookup order.instrument) none
    rw [hposition]
    exact .refl position
  · obtain ⟨hne, hsum⟩ := fillOrder_quantity hpos hfill
    obtain ⟨_, _, position', removed, -, -, hposition', hremoved, -, -, -, hpositions⟩ :=
      fillOrder_sell hside hfill
    obtain rfl : position = position' := Option.some.inj (hposition.symm.trans hposition')
    rcases hpositions with ⟨-, herased⟩ | ⟨hpart, rest, hrest, hset⟩
    · have hnone := AList.lookup_erase order.instrument account.positions
      rw [herased, hnone]
      exact .gone _
    · unfold reducedPosition at hrest
      simp only [bind_ok_iff, pure_ok_iff] at hrest
      obtain ⟨_, -, rfl⟩ := hrest
      rw [hset, OrderedMap.lookup_set, if_pos rfl, soldQuantity_some (by rw [hsales]; exact hne),
        hsales, hsum]
      have hunits := @Rounding.money_ambient .decimal (position.adjustedUnits - removed)
      exact .reduced hpos (by omega) hremoved rfl hunits rfl

/-- A sale leaves held positions behind. -/
lemma executeOrder_sale_held (hdata : Priced data) {account : Account} {order : Order}
    {outcome : OrderOutcome} {position : Position} (hheld : AllHeld account.positions)
    (hfew : FewShares account.positions) (hside : order.side = .sell) (hpos : 0 < order.quantity)
    (hposition : account.positions.lookup order.instrument = some position)
    (hle : (order.quantity : ℤ) ≤ position.executionShares)
    (h : executeOrder .decimal data costs account order = .ok outcome) :
    AllHeld outcome.settlement.positions ∧ FewShares outcome.settlement.positions := by
  rcases executeOrder_cases h with ⟨reason, rfl⟩ | ⟨price, hprice, hfill⟩
  · exact ⟨hheld, hfew⟩
  · obtain ⟨_, _, position', removed, -, -, hposition', hremoved, -, -, -, hpositions⟩ :=
      fillOrder_sell hside hfill
    obtain rfl : position = position' := Option.some.inj (hposition.symm.trans hposition')
    have hsound := hheld _ _ hposition
    rcases hpositions with ⟨-, herased⟩ | ⟨hpart, rest, hrest, hset⟩
    · rw [herased]
      refine ⟨hheld.erase _, fun id other hother => ?_⟩
      by_cases heq : id = order.instrument
      · rw [heq, AList.lookup_erase] at hother
        cases hother
      · rw [AList.lookup_erase_ne heq] at hother
        exact hfew id other hother
    · unfold reducedPosition at hrest
      simp only [bind_ok_iff, pure_ok_iff] at hrest
      obtain ⟨_, -, rfl⟩ := hrest
      obtain ⟨-, -, hunits⟩ := reducedUnits_bounds hsound.units hpos (by omega)
        (hfew _ _ hposition) hremoved
      rw [hset]
      refine ⟨hheld.set _ ⟨?_, ?_, ?_⟩, fun id other hother => ?_⟩
      · change 0 < position.executionShares - (order.quantity : ℤ)
        omega
      · change 0 < Rounding.decimal.money (Rounding.decimal.ambient _)
        rw [Rounding.money_ambient]
        exact hunits
      · exact price.adjusted_nonneg (hdata _ _ _ hprice).le
      · rw [OrderedMap.lookup_set] at hother
        split_ifs at hother with heq
        · cases hother
          have hbefore := hfew _ _ hposition
          change position.executionShares - (order.quantity : ℤ) < 10 ^ 13
          omega
        · exact hfew id other hother

/-- A purchase leaves held positions behind. -/
lemma executeOrder_purchase_held (hdata : Priced data) {account : Account} {order : Order}
    {outcome : OrderOutcome} (hheld : AllHeld account.positions) (hside : order.side = .buy)
    (hpos : 0 < order.quantity)
    (h : executeOrder .decimal data costs account order = .ok outcome) :
    AllHeld outcome.settlement.positions := by
  rcases executeOrder_cases h with ⟨reason, rfl⟩ | ⟨price, hprice, hfill⟩
  · exact hheld
  · obtain ⟨_, _, unitPrice, addedUnits, -, -, hunit, hadded, -, hsettlement⟩ :=
      fillOrder_buy hside hfill
    have hopen := price.adjusted_nonneg (hdata _ _ _ hprice).le
    rw [Rounding.divide_ok_iff] at hunit hadded
    have hunitPos : 0 < unitPrice := by
      refine lt_of_le_of_ne ?_ (Ne.symm hadded.1)
      rw [← hunit.2]
      exact Rounding.accounting_nonneg (div_nonneg hopen (hdata _ _ _ hprice).le)
    have hquantity : (0 : ℚ) < order.quantity := by exact_mod_cast hpos
    have haddedPos : 0 < addedUnits := by
      rw [← hadded.2]
      exact decimal_accounting_pos (div_pos hquantity hunitPos)
    rw [hsettlement]
    refine hheld.set _ ?_
    cases hlookup : account.positions.lookup order.instrument with
    | none => exact ⟨Int.natCast_pos.mpr hpos, haddedPos, hopen⟩
    | some position =>
      have hsound := hheld _ _ hlookup
      refine ⟨?_, ?_, hopen⟩
      · have hshares := hsound.shares
        change 0 < position.executionShares + (order.quantity : ℤ)
        omega
      · change 0 < Rounding.decimal.money (Rounding.decimal.ambient _)
        rw [Rounding.money_ambient]
        exact DecimalContext.roundTo_pos (by decide) (add_pos hsound.units haddedPos)

/-! ### Passes of a session -/

/-- What one order did to the positions and the fills of a trading pass. -/
structure Booked (data : MarketData) (costs : Costs) (order : Order) (outcome : OrderOutcome)
    (trading next : Trading E) : Prop where
  quantity_pos : 0 < order.quantity
  executed : executeOrder .decimal data costs trading.account order = .ok outcome
  positions : next.account.positions = outcome.settlement.positions
  fills : next.journal.fills = trading.journal.fills ++ outcome.fills

/-- A step that submits nothing. -/
structure Idle (trading next : Trading E) : Prop where
  positions : next.account.positions = trading.account.positions
  fills : next.journal.fills = trading.journal.fills

lemma Booked.other {order : Order} {outcome : OrderOutcome} {trading next : Trading E}
    (h : Booked data costs order outcome trading next) {other : InstrumentId}
    (hother : other ≠ order.instrument) :
    next.account.positions.lookup other = trading.account.positions.lookup other
      ∧ salesOf next.journal.fills other = salesOf trading.journal.fills other := by
  rw [h.positions, h.fills, salesOf_append, salesOf_order h.executed,
    if_neg fun hsale => hother hsale.2.symm, List.append_nil]
  exact ⟨executeOrder_other h.executed hother, rfl⟩

lemma sellStep_booked {terms : TargetTerms} {marks : Marks} {trading next : Trading E}
    {id : InstrumentId} (h : sellStep .decimal terms marks trading id = .ok next) :
    Idle trading next ∨ ∃ order outcome position, order.instrument = id ∧ order.side = .sell
      ∧ trading.account.positions.lookup id = some position
      ∧ (order.quantity : ℤ) ≤ position.executionShares
      ∧ Booked terms.data terms.costs order outcome trading next := by
  unfold sellStep at h
  simp only [bind_ok_iff, found_ok_iff] at h
  obtain ⟨position, hposition, intent?, hintent, h⟩ := h
  split at h
  · rw [pure_ok_iff] at h
    subst h
    exact .inl ⟨rfl, rfl⟩
  · next intent =>
    split at h
    · rw [pure_ok_iff] at h
      subst h
      exact .inl ⟨rfl, rfl⟩
    · next hne =>
      unfold trade at h
      simp only [bind_ok_iff, pure_ok_iff] at h
      obtain ⟨outcome, houtcome, rfl⟩ := h
      have hle := sellIntent_le hintent
      refine .inr ⟨terms.sellOrder id intent, outcome, position, rfl, rfl, hposition, ?_,
        Nat.pos_of_ne_zero hne, houtcome, rfl, rfl⟩
      change (intent.legalQuantity : ℤ) ≤ position.executionShares
      omega

lemma buyStep_booked {terms : TargetTerms} {buying next : Buying E} {id : InstrumentId}
    (h : buyStep .decimal terms buying id = .ok next) :
    Idle buying.trading next.trading ∨ ∃ order outcome, order.instrument = id ∧ order.side = .buy
      ∧ Booked terms.data terms.costs order outcome buying.trading next.trading := by
  unfold buyStep at h
  simp only [bind_ok_iff] at h
  obtain ⟨intent, hintent, h⟩ := h
  cases intent with
  | skipped =>
    dsimp only at h
    rw [pure_ok_iff] at h
    subst h
    exact .inl ⟨rfl, rfl⟩
  | unavailable deficit reason =>
    dsimp only at h
    rw [pure_ok_iff] at h
    subst h
    exact .inl ⟨rfl, rfl⟩
  | ineligible =>
    dsimp only at h
    rw [pure_ok_iff] at h
    subst h
    exact .inl ⟨rfl, rfl⟩
  | sized deficit unrounded legal quantity =>
    unfold buySized at h
    dsimp only at h
    split at h
    · rw [pure_ok_iff] at h
      subst h
      refine .inl ⟨rfl, ?_⟩
      dsimp only
      unfold buyDiagnose
      split_ifs <;> rfl
    · next hne =>
      simp only [bind_ok_iff, pure_ok_iff] at h
      obtain ⟨outcome, houtcome, rfl⟩ := h
      refine .inr ⟨terms.buyOrder id deficit unrounded quantity, outcome, rfl, rfl,
        Nat.pos_of_ne_zero hne, houtcome, rfl, ?_⟩
      dsimp only [Journal.record]
      split_ifs <;> rfl

/-- A sell step moves its own instrument only. -/
lemma sellStep_other {terms : TargetTerms} {marks : Marks} {trading next : Trading E}
    {id other : InstrumentId} (h : sellStep .decimal terms marks trading id = .ok next)
    (hother : other ≠ id) :
    next.account.positions.lookup other = trading.account.positions.lookup other
      ∧ salesOf next.journal.fills other = salesOf trading.journal.fills other := by
  rcases sellStep_booked h with hidle | ⟨order, outcome, position, hid, -, -, -, hbooked⟩
  · rw [hidle.positions, hidle.fills]
    exact ⟨rfl, rfl⟩
  · exact hbooked.other (by rwa [hid])

lemma sellStep_move {terms : TargetTerms} {marks : Marks} {trading next : Trading E}
    {id : InstrumentId} {position : Position}
    (h : sellStep .decimal terms marks trading id = .ok next)
    (hposition : trading.account.positions.lookup id = some position)
    (hsales : salesOf trading.journal.fills id = []) :
    HoldingMove position (next.account.positions.lookup id)
      (soldQuantity next.journal.fills id) := by
  rcases sellStep_booked h with hidle | ⟨order, outcome, position', rfl, hside, hposition', hle,
    hbooked⟩
  · rw [hidle.positions, hidle.fills, soldQuantity_none hsales, hposition]
    exact .refl position
  · obtain rfl : position = position' := Option.some.inj (hposition.symm.trans hposition')
    have hsold : soldQuantity next.journal.fills order.instrument
        = soldQuantity outcome.fills order.instrument := by
      refine soldQuantity_congr ?_
      rw [hbooked.fills, salesOf_append, hsales, List.nil_append]
    rw [hbooked.positions, hsold]
    exact executeOrder_sale hside hbooked.quantity_pos hposition hle hbooked.executed

lemma sellStep_held {terms : TargetTerms} {marks : Marks} {trading next : Trading E}
    {id : InstrumentId} (hdata : Priced terms.data)
    (h : sellStep .decimal terms marks trading id = .ok next)
    (hheld : AllHeld trading.account.positions) (hfew : FewShares trading.account.positions) :
    AllHeld next.account.positions ∧ FewShares next.account.positions := by
  rcases sellStep_booked h with hidle | ⟨order, outcome, position, rfl, hside, hposition, hle,
    hbooked⟩
  · rw [hidle.positions]
    exact ⟨hheld, hfew⟩
  · rw [hbooked.positions]
    exact executeOrder_sale_held hdata hheld hfew hside hbooked.quantity_pos hposition hle
      hbooked.executed

/-- The sell pass leaves alone what it does not visit. -/
lemma sells_other {terms : TargetTerms} {marks : Marks} {ids : List InstrumentId}
    {trading next : Trading E} {id : InstrumentId} (hid : id ∉ ids)
    (h : ids.foldlM (sellStep .decimal terms marks) trading = .ok next) :
    next.account.positions.lookup id = trading.account.positions.lookup id
      ∧ salesOf next.journal.fills id = salesOf trading.journal.fills id := by
  induction ids generalizing trading with
  | nil =>
    rw [List.foldlM_nil, pure_ok_iff] at h
    subst h
    exact ⟨rfl, rfl⟩
  | cons head ids ih =>
    rw [List.foldlM_cons, bind_ok_iff] at h
    obtain ⟨middle, hstep, h⟩ := h
    obtain ⟨hhead, hrest⟩ := List.ne_and_not_mem_of_not_mem_cons hid
    obtain ⟨hlookup, hsales⟩ := ih hrest h
    obtain ⟨hlookup', hsales'⟩ := sellStep_other hstep hhead
    exact ⟨hlookup.trans hlookup', hsales.trans hsales'⟩

/-- The sell pass sells an instrument once. -/
lemma sells_move {terms : TargetTerms} {marks : Marks} {ids : List InstrumentId}
    {trading next : Trading E} {id : InstrumentId} {position : Position} (hnodup : ids.Nodup)
    (h : ids.foldlM (sellStep .decimal terms marks) trading = .ok next)
    (hposition : trading.account.positions.lookup id = some position)
    (hsales : salesOf trading.journal.fills id = []) :
    HoldingMove position (next.account.positions.lookup id)
      (soldQuantity next.journal.fills id) := by
  induction ids generalizing trading with
  | nil =>
    rw [List.foldlM_nil, pure_ok_iff] at h
    subst h
    rw [hposition, soldQuantity_none hsales]
    exact .refl position
  | cons head ids ih =>
    rw [List.foldlM_cons, bind_ok_iff] at h
    obtain ⟨middle, hstep, h⟩ := h
    obtain ⟨hhead, hrest⟩ := List.nodup_cons.mp hnodup
    by_cases heq : id = head
    · subst heq
      obtain ⟨hlookup, hsold⟩ := sells_other hhead h
      rw [hlookup, soldQuantity_congr hsold]
      exact sellStep_move hstep hposition hsales
    · obtain ⟨hlookup, hsold⟩ := sellStep_other hstep heq
      exact ih hrest h (hlookup.trans hposition) (hsold.trans hsales)

lemma sells_held {terms : TargetTerms} {marks : Marks} {ids : List InstrumentId}
    {trading next : Trading E} (hdata : Priced terms.data)
    (h : ids.foldlM (sellStep .decimal terms marks) trading = .ok next)
    (hheld : AllHeld trading.account.positions) (hfew : FewShares trading.account.positions) :
    AllHeld next.account.positions := by
  induction ids generalizing trading with
  | nil =>
    rw [List.foldlM_nil, pure_ok_iff] at h
    subst h
    exact hheld
  | cons head ids ih =>
    rw [List.foldlM_cons, bind_ok_iff] at h
    obtain ⟨middle, hstep, h⟩ := h
    obtain ⟨hheld', hfew'⟩ := sellStep_held hdata hstep hheld hfew
    exact ih h hheld' hfew'

/-- A buy step changes the holding of an instrument only with a fill of it. -/
lemma buyStep_unbought {terms : TargetTerms} {buying next : Buying E} {step id : InstrumentId}
    (h : buyStep .decimal terms buying step = .ok next)
    (hnot : ¬next.trading.journal.Bought id) :
    next.trading.account.positions.lookup id = buying.trading.account.positions.lookup id
      ∧ salesOf next.trading.journal.fills id = salesOf buying.trading.journal.fills id := by
  rcases buyStep_booked h with hidle | ⟨order, outcome, hstep, hside, hbooked⟩
  · rw [hidle.positions, hidle.fills]
    exact ⟨rfl, rfl⟩
  · by_cases hid : id = order.instrument
    · have hsales : salesOf outcome.fills id = [] := by
        rw [salesOf_order hbooked.executed, if_neg]
        rintro ⟨hsell, -⟩
        rw [hside] at hsell
        cases hsell
      rw [hbooked.fills, salesOf_append, hsales, List.append_nil, hbooked.positions]
      refine ⟨?_, rfl⟩
      rcases executeOrder_cases hbooked.executed with ⟨reason, rfl⟩ | ⟨price, -, hfill⟩
      · rfl
      · obtain ⟨hne, -⟩ := fillOrder_quantity hbooked.quantity_pos hfill
        obtain ⟨fill, rest, hcons⟩ := List.exists_cons_of_ne_nil hne
        have hfillMem : fill ∈ outcome.fills := by
          rw [hcons]
          exact List.mem_cons_self
        obtain ⟨hinstrument, hfillSide⟩ := (executeOrder_events hbooked.executed).2 fill hfillMem
        refine absurd ⟨fill, ?_, hinstrument.trans hid.symm, hfillSide.trans hside⟩ hnot
        rw [hbooked.fills]
        exact List.mem_append_right _ hfillMem
    · exact hbooked.other hid

lemma buyStep_fills {terms : TargetTerms} {buying next : Buying E} {step : InstrumentId}
    (h : buyStep .decimal terms buying step = .ok next) :
    ∀ fill ∈ buying.trading.journal.fills, fill ∈ next.trading.journal.fills := by
  intro fill hfill
  rcases buyStep_booked h with hidle | ⟨order, outcome, -, -, hbooked⟩
  · rwa [hidle.fills]
  · rw [hbooked.fills]
    exact List.mem_append_left _ hfill

/-- What the buy pass did not buy, it left alone. -/
lemma buys_unbought {terms : TargetTerms} {ids : List InstrumentId} {buying next : Buying E}
    {id : InstrumentId} (h : ids.foldlM (buyStep .decimal terms) buying = .ok next)
    (hnot : ¬next.trading.journal.Bought id) :
    next.trading.account.positions.lookup id = buying.trading.account.positions.lookup id
      ∧ salesOf next.trading.journal.fills id = salesOf buying.trading.journal.fills id
      ∧ ∀ fill ∈ buying.trading.journal.fills, fill ∈ next.trading.journal.fills := by
  induction ids generalizing buying with
  | nil =>
    rw [List.foldlM_nil, pure_ok_iff] at h
    subst h
    exact ⟨rfl, rfl, fun _ hfill => hfill⟩
  | cons head ids ih =>
    rw [List.foldlM_cons, bind_ok_iff] at h
    obtain ⟨middle, hstep, h⟩ := h
    obtain ⟨hlookup, hsales, hfills⟩ := ih h
    have hmiddle : ¬middle.trading.journal.Bought id := by
      rintro ⟨fill, hfill, hbought⟩
      exact hnot ⟨fill, hfills fill hfill, hbought⟩
    obtain ⟨hlookup', hsales'⟩ := buyStep_unbought hstep hmiddle
    exact ⟨hlookup.trans hlookup', hsales.trans hsales',
      fun fill hfill => hfills fill (buyStep_fills hstep fill hfill)⟩

lemma buys_held {terms : TargetTerms} {ids : List InstrumentId} {buying next : Buying E}
    (hdata : Priced terms.data) (h : ids.foldlM (buyStep .decimal terms) buying = .ok next)
    (hheld : AllHeld buying.trading.account.positions) :
    AllHeld next.trading.account.positions := by
  induction ids generalizing buying with
  | nil =>
    rw [List.foldlM_nil, pure_ok_iff] at h
    subst h
    exact hheld
  | cons head ids ih =>
    rw [List.foldlM_cons, bind_ok_iff] at h
    obtain ⟨middle, hstep, h⟩ := h
    refine ih h ?_
    rcases buyStep_booked hstep with hidle | ⟨order, outcome, -, hside, hbooked⟩
    · rw [hidle.positions]
      exact hheld
    · rw [hbooked.positions]
      exact executeOrder_purchase_held hdata hheld hside hbooked.quantity_pos hbooked.executed

/-! ### Sessions -/

variable {S : Type} {session : Session} {B : Binary64 F}

lemma openMarked_held (hdata : Priced data) {positions : Positions} (h : AllHeld positions) :
    AllHeld (openMarked data session positions) := by
  intro id marked hmarked
  unfold openMarked at hmarked
  rw [OrderedMap.lookup_filterMap, Option.bind_eq_some_iff] at hmarked
  obtain ⟨position, hposition, hmarked⟩ := hmarked
  exact (openMark_price hdata (h id position hposition) hmarked).1

/-- The holding behind a marked position. -/
lemma openMarked_holding {positions : Positions} {id : InstrumentId} {marked : Position}
    (h : (openMarked data session positions).lookup id = some marked) :
    ∃ position, positions.lookup id = some position
      ∧ marked.executionShares = position.executionShares
      ∧ marked.adjustedUnits = position.adjustedUnits
      ∧ marked.holdingCycleStartedSession = position.holdingCycleStartedSession := by
  obtain ⟨position, price, hposition, rfl⟩ := lookup_openMarked h
  exact ⟨position, hposition, rfl, rfl, rfl⟩

lemma openMarked_few {positions : Positions} (h : FewShares positions) :
    FewShares (openMarked data session positions) := by
  intro id marked hmarked
  obtain ⟨position, hposition, hshares, -, -⟩ := openMarked_holding hmarked
  rw [hshares]
  exact h id position hposition

/-- What a target did to the holdings that it did not buy. -/
lemma executeTarget_move {target : PendingTarget} {opened : OpenedSession}
    {traded : TradedSession F E}
    (h : executeTarget .decimal B data costs session target opened = .ok traded)
    {id : InstrumentId} (hnot : ¬traded.trading.journal.Bought id) :
    (opened.account.positions.lookup id = none →
        traded.trading.account.positions.lookup id = none)
      ∧ ∀ position, opened.account.positions.lookup id = some position →
        HoldingMove position (traded.trading.account.positions.lookup id)
          (soldQuantity traded.trading.journal.fills id) := by
  unfold executeTarget at h
  simp only [bind_ok_iff, Prod.exists] at h
  obtain ⟨sizing, -, sold, hsold, start, events, hstart, bought, hbought, hsettle⟩ := h
  obtain ⟨htrading, -, -⟩ := settleTarget_ok hsettle
  obtain ⟨hbuying, -⟩ := remarkForBuys_ok hstart
  rw [htrading] at hnot ⊢
  obtain ⟨hlookup, hsales, -⟩ := buys_unbought hbought hnot
  rw [hbuying] at hlookup hsales
  have hnodup := AList.keys_nodup (OrderedMap.sorted opened.account.positions)
  have hempty : salesOf (emptyTargetDiagnostics (E := E) session target).fills id = [] := by
    rw [(emptyTargetDiagnostics_orders session target).2]
    rfl
  -- two Open marks stand between the sells and the end of the target
  have hmarked : ∀ marked,
      (openMarked data session bought.trading.account.positions).lookup id = some marked →
      ∃ old, sold.account.positions.lookup id = some old
        ∧ marked.executionShares = old.executionShares
        ∧ marked.adjustedUnits = old.adjustedUnits
        ∧ marked.holdingCycleStartedSession = old.holdingCycleStartedSession := by
    intro marked hmarked
    obtain ⟨last, hlast, hshares, hunits, hstarted⟩ := openMarked_holding hmarked
    rw [hlookup] at hlast
    obtain ⟨old, hold, hshares', hunits', hstarted'⟩ := openMarked_holding hlast
    exact ⟨old, hold, hshares.trans hshares', hunits.trans hunits', hstarted.trans hstarted'⟩
  refine ⟨fun hnone => ?_, fun position hposition => ?_⟩
  · cases hfinal : (openMarked data session bought.trading.account.positions).lookup id with
    | none => rfl
    | some marked =>
      obtain ⟨old, hold, -⟩ := hmarked marked hfinal
      have hkey : id ∉ (OrderedMap.sorted opened.account.positions).keys := by
        rw [← AList.mem_keys, ← AList.lookup_eq_none]
        rw [AList.perm_lookup (OrderedMap.sortEntries_perm opened.account.positions.entries)]
        exact hnone
      rw [(sells_other hkey hsold).1, hnone] at hold
      cases hold
  · have hmove := sells_move hnodup hsold hposition hempty
    rw [soldQuantity_congr hsales]
    exact hmove.mark hmarked

lemma executeTarget_held (hdata : Priced data) {target : PendingTarget} {opened : OpenedSession}
    {traded : TradedSession F E}
    (h : executeTarget .decimal B data costs session target opened = .ok traded)
    (hheld : AllHeld opened.account.positions) (hfew : FewShares opened.account.positions) :
    AllHeld traded.trading.account.positions := by
  unfold executeTarget at h
  simp only [bind_ok_iff, Prod.exists] at h
  obtain ⟨sizing, -, sold, hsold, start, events, hstart, bought, hbought, hsettle⟩ := h
  obtain ⟨htrading, -, -⟩ := settleTarget_ok hsettle
  obtain ⟨hbuying, -⟩ := remarkForBuys_ok hstart
  rw [htrading]
  refine openMarked_held hdata (buys_held hdata hbought ?_)
  rw [hbuying]
  exact openMarked_held hdata (sells_held hdata hsold hheld hfew)

end ThesisTrace.Risk
