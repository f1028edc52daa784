import Mathlib.Tactic.FieldSimp
import Mathlib.Tactic.Ring
import ThesisTrace.Strategy.SessionExecution

/-!
# Conservation of the Strategy account

In exact decimal arithmetic the gap between gross and net cash is the cumulative transaction
cost in every account that the simulator passes through, and every held position is sound.
-/

namespace ThesisTrace.Strategy
open Transaction LabelledTransition

variable {F S E : Type} {costs : Costs} {data : MarketData} {session : Session}

structure Position.Sound (position : Position) : Prop where
  executionShares_pos : 0 < position.executionShares
  adjustedUnits_pos : 0 < position.adjustedUnits
  remainingAcquisitionCost_nonneg : 0 ≤ position.remainingAcquisitionCost

structure Account.Conserved (account : Account) : Prop where
  cash : account.grossCash - account.netCash = account.cumulativeCost
  held : ∀ id position, account.positions.lookup id = some position → position.Sound

/-! ### Marks and valuation -/

/-- Both NAVs value the same positions, so they differ by the cash alone. -/
lemma navOf_sub_navOf (gross net : ℚ) (positions : Positions) (marks : Marks) :
    navOf .exact gross positions marks - navOf .exact net positions marks = gross - net := by
  unfold navOf
  simp only [Rounding.exact_money, Rounding.exact_ambient]
  ring

lemma Account.Conserved.nav {account : Account} (h : account.Conserved) (marks : Marks) :
    navOf .exact account.grossCash account.positions marks
      - navOf .exact account.netCash account.positions marks = account.cumulativeCost := by
  rw [navOf_sub_navOf]
  exact h.cash

lemma Account.Conserved.openMarked {account : Account} (h : account.Conserved) :
    Account.Conserved
      { account with positions := openMarked data session account.positions } where
  cash := h.cash
  held id marked hmarked := by
    obtain ⟨position, price, hposition, rfl⟩ := lookup_openMarked hmarked
    have hsound := h.held id position hposition
    exact ⟨hsound.1, hsound.2, hsound.3⟩

lemma Account.Conserved.closed {account : Account} (h : account.Conserved) :
    Account.Conserved
      { account with positions := closeMarked data session (agePositions account.positions) } where
  cash := h.cash
  held id closed hclosed := by
    obtain ⟨aged, price, haged, rfl⟩ := lookup_closeMarked hclosed
    obtain ⟨position, hposition, rfl⟩ := lookup_agePositions haged
    have hsound := h.held id position hposition
    exact ⟨hsound.1, hsound.2, hsound.3⟩

/-! ### Orders -/

/-- What the sell and buy loops guarantee of an order before they submit it. -/
structure Order.Submittable (data : MarketData) (account : Account) (order : Order) : Prop where
  quantity_pos : 0 < order.quantity
  buy : order.side = .buy → ∀ price,
    data.executionPrices order.context.session order.instrument = some price → 0 < price.rawOpen
  sell : order.side = .sell → ∀ position,
    account.positions.lookup order.instrument = some position →
      (order.quantity : ℤ) ≤ position.executionShares

lemma boughtPosition_sound {quantity : ℕ} {rawNotional totalCost addedUnits adjustedOpen : ℚ}
    {held : Option Position} (hquantity : 0 < quantity) (hnotional : 0 ≤ rawNotional)
    (hcost : 0 ≤ totalCost) (hunits : 0 < addedUnits)
    (hheld : ∀ position, held = some position → position.Sound) :
    (boughtPosition .exact session quantity rawNotional totalCost addedUnits adjustedOpen
      held).Sound := by
  cases held with
  | none =>
    refine ⟨?_, hunits, ?_⟩
    · exact Int.natCast_pos.mpr hquantity
    · exact add_nonneg hnotional hcost
  | some position =>
    have hsound := hheld position rfl
    have hshares := hsound.executionShares_pos
    refine ⟨?_, ?_, ?_⟩
    · simp only [boughtPosition]
      omega
    · exact add_pos hsound.adjustedUnits_pos hunits
    · exact add_nonneg (add_nonneg hsound.remainingAcquisitionCost_nonneg hnotional) hcost

/-- Units and cost basis of a partial sale scale with the shares that stay. -/
lemma reducedPosition_sound {position rest : Position} {quantity : ℕ} {removed adjustedOpen : ℚ}
    (hsound : position.Sound) (hlt : (quantity : ℤ) < position.executionShares)
    (hremoved : removedUnits .exact position quantity = .ok removed)
    (h : reducedPosition .exact position quantity removed adjustedOpen = .ok rest) :
    rest.Sound := by
  unfold removedUnits at hremoved
  rw [if_neg hlt.ne', Rounding.divide_ok_iff] at hremoved
  obtain ⟨hne, rfl⟩ := hremoved
  unfold reducedPosition at h
  simp only [bind_ok_iff, pure_ok_iff, Rounding.divide_ok_iff] at h
  obtain ⟨_, ⟨-, rfl⟩, rfl⟩ := h
  have hshares : (0 : ℚ) < position.executionShares := by
    exact_mod_cast hsound.executionShares_pos
  have hltQ : (quantity : ℚ) < position.executionShares := by
    exact_mod_cast hlt
  have hunits := hsound.adjustedUnits_pos
  have hbasis := hsound.remainingAcquisitionCost_nonneg
  refine ⟨?_, ?_, ?_⟩
  · simp only
    omega
  · simp only [Rounding.exact_money, Rounding.exact_ambient, Rounding.exact_accounting]
    have hkeep : position.adjustedUnits - position.adjustedUnits * quantity
        / position.executionShares
        = position.adjustedUnits * (position.executionShares - quantity)
          / position.executionShares := by
      field_simp
    rw [hkeep]
    exact div_pos (mul_pos hunits (by linarith)) hshares
  · simp only [Rounding.exact_money, Rounding.exact_accounting]
    exact div_nonneg (mul_nonneg hbasis (by linarith)) hshares.le

/-- An order moves gross and net cash by the same settlement, and net cash by its cost. -/
theorem Account.Conserved.settle {account : Account} {order : Order} {outcome : OrderOutcome}
    (h : account.Conserved) (horder : order.Submittable data account)
    (hexecute : executeOrder .exact data costs account order = .ok outcome) :
    (account.settle .exact outcome).Conserved := by
  have hcash := h.cash
  rcases executeOrder_cases hexecute with ⟨reason, rfl⟩ | ⟨price, hprice, hfill⟩
  · refine ⟨?_, h.held⟩
    simp only [Account.settle, rejectOrder, Rounding.exact_money, Rounding.exact_ambient]
    linarith
  · cases hside : order.side with
    | buy =>
      obtain ⟨profile, children, unitPrice, addedUnits, -, -, hunit, hadded, hcost, hsettle⟩ :=
        fillOrder_buy hside hfill
      rw [Rounding.divide_ok_iff] at hunit hadded
      obtain ⟨hraw, rfl⟩ := hunit
      obtain ⟨hunitNe, rfl⟩ := hadded
      have hrawPos := horder.buy hside price hprice
      have hfactor : 0 ≤ executionPriceFactor .exact .buy costs := executionPriceFactor_nonneg .buy
      have hpricePos : 0 ≤ price.rawOpen * executionPriceFactor .exact .buy costs :=
        mul_nonneg hrawPos.le hfactor
      have hcostNonneg : 0 ≤ outcome.cost := by
        rw [hcost]
        exact totalChildCost_nonneg hpricePos _ _ _
      have hunitPos : 0 < price.adjustedOpen / price.rawOpen := by
        apply lt_of_le_of_ne _ (Ne.symm hunitNe)
        exact div_nonneg (price.adjusted_nonneg hrawPos.le) hrawPos.le
      have hquantity : (0 : ℚ) < order.quantity := by
        exact_mod_cast horder.quantity_pos
      constructor
      · simp only [Account.settle, hsettle, Rounding.exact_money, Rounding.exact_ambient]
        linarith
      · intro id position hlookup
        simp only [Account.settle, hsettle] at hlookup
        rw [OrderedMap.lookup_set] at hlookup
        split at hlookup
        · cases hlookup
          apply boughtPosition_sound horder.quantity_pos _ hcostNonneg
          · exact div_pos hquantity hunitPos
          · exact h.held order.instrument
          · exact mul_nonneg hquantity.le hpricePos
        · exact h.held id position hlookup
    | sell =>
      obtain ⟨_, children, position, removed, -, -, hposition, hremoved, hcost, hgross, hnet,
        hsettle⟩ := fillOrder_sell hside hfill
      have hle := horder.sell hside position hposition
      constructor
      · simp only [Account.settle, hgross, hnet, Rounding.exact_money, Rounding.exact_ambient]
        linarith
      · intro id held hlookup
        simp only [Account.settle] at hlookup
        rcases hsettle with ⟨-, hpositions⟩ | ⟨hne, rest, hrest, hpositions⟩
        · rw [hpositions] at hlookup
          by_cases hid : id = order.instrument
          · rw [hid, AList.lookup_erase] at hlookup
            cases hlookup
          · rw [AList.lookup_erase_ne hid] at hlookup
            exact h.held id held hlookup
        · rw [hpositions, OrderedMap.lookup_set] at hlookup
          split at hlookup
          · cases hlookup
            exact reducedPosition_sound (h.held _ _ hposition) (by omega) hremoved hrest
          · exact h.held id held hlookup

/-- A filled sale of all shares removes the instrument from the position map. -/
theorem liquidated_absent {account : Account} {order : Order} {outcome : OrderOutcome}
    {position : Position} {R : Rounding} (hside : order.side = .sell)
    (hposition : account.positions.lookup order.instrument = some position)
    (hall : position.executionShares = order.quantity)
    (hexecute : executeOrder R data costs account order = .ok outcome)
    (hfilled : outcome.order.rejectionReason = none) :
    order.instrument ∉ outcome.settlement.positions := by
  rcases executeOrder_cases hexecute with ⟨reason, rfl⟩ | ⟨price, -, hfill⟩
  · cases hfilled
  · obtain ⟨_, _, position', _, -, -, hposition', -, -, -, -, hsettle⟩ :=
      fillOrder_sell hside hfill
    rw [hposition] at hposition'
    cases hposition'
    rcases hsettle with ⟨-, hpositions⟩ | ⟨hne, -⟩
    · rw [hpositions, ← AList.lookup_eq_none]
      exact AList.lookup_erase _ _
    · exact absurd hall hne

/-! ### Steps of a session -/

lemma Account.Conserved.sellStep {terms : TargetTerms} {marks : Marks} {trading next : Trading E}
    {id : InstrumentId} (h : trading.account.Conserved)
    (hstep : sellStep .exact terms marks trading id = .ok next) : next.account.Conserved := by
  rcases sellStep_account hstep with heq | ⟨position, intent, outcome, hposition, hintent, hpos,
    hexecute, heq⟩
  · rw [heq]
    exact h
  · rw [heq]
    refine h.settle ⟨hpos, (by intro hside; cases hside), ?_⟩ hexecute
    intro _ held hheld
    have hsame : some position = some held := hposition.symm.trans hheld
    cases hsame
    have hle := sellIntent_le hintent
    have hshares := (h.held id position hposition).executionShares_pos
    change (intent.legalQuantity : ℤ) ≤ position.executionShares
    omega

lemma Account.Conserved.buyStep {terms : TargetTerms} {buying next : Buying E}
    {id : InstrumentId} (h : buying.trading.account.Conserved)
    (hstep : buyStep .exact terms buying id = .ok next) : next.trading.account.Conserved := by
  rcases buyStep_account hstep with heq | ⟨deficit, unrounded, legal, quantity, outcome, hintent,
    hpos, hexecute, heq⟩
  · rw [heq]
    exact h
  · rw [heq]
    refine h.settle ⟨hpos, ?_, (by intro hside; cases hside)⟩ hexecute
    intro _ price hprice
    obtain ⟨price', profile, hprice', -, hraw, -⟩ := buyIntent_sized hintent hpos
    have hsame : some price = some price' := hprice.symm.trans hprice'
    cases hsame
    exact hraw

/-! ### Runs -/

/-- The session of a phase, once it has opened. -/
def Phase.opened? : Phase F S E → Option OpenedSession
  | .between _ => none
  | .selling _ frame _ _ => some frame.opened
  | .buying _ frame _ _ _ => some frame.opened
  | .traded _ _ _ opened _ => some opened

/-- The invariant of a run: conservation, also in the NAVs of an opened session, and a last
daily row that a continuation can resume from. -/
structure Phase.Conserved (phase : Phase F S E) : Prop where
  account : phase.account.Conserved
  opened : ∀ opened ∈ phase.opened?,
    opened.preGrossNav - opened.preNetNav = opened.account.cumulativeCost
  booked : ∀ state, phase = .between state → state.Booked

lemma openSession_conserved {account : Account} {opened : OpenedSession} (h : account.Conserved)
    (hopen : openSession .exact data session account = .ok opened) :
    opened.account.Conserved
      ∧ opened.preGrossNav - opened.preNetNav = opened.account.cumulativeCost := by
  have hopened := (openSession_ok hopen).2
  rw [hopened]
  exact ⟨h.openMarked, h.openMarked.nav _⟩

lemma Move.conserved {sim : Simulation F S E} {phase next : Phase F S E}
    {label : SimulatorLabel} (hexact : sim.rounding = .exact) (h : phase.Conserved)
    (hmove : Move sim phase label next) : next.Conserved := by
  have haccount := h.account
  cases hmove with
  | openIdle hpending hopen =>
    rw [hexact] at hopen
    obtain ⟨hconserved, hgap⟩ := openSession_conserved haccount hopen
    refine ⟨hconserved, ?_, fun state heq => by cases heq⟩
    intro opened hopened
    cases hopened
    exact hgap
  | openTarget hpending hcheck hopen hreport hsizing =>
    rw [hexact] at hopen
    obtain ⟨hconserved, hgap⟩ := openSession_conserved haccount hopen
    refine ⟨hconserved, ?_, fun state heq => by cases heq⟩
    intro opened hopened
    cases hopened
    exact hgap
  | sell hstep =>
    rw [hexact] at hstep
    exact ⟨Account.Conserved.sellStep haccount hstep, h.opened, fun state heq => by cases heq⟩
  | turnToBuys hremark =>
    refine ⟨?_, h.opened, fun state heq => by cases heq⟩
    change Account.Conserved (Buying.trading _).account
    rw [(remarkForBuys_ok hremark).1]
    exact haccount.openMarked
  | buy hstep =>
    rw [hexact] at hstep
    exact ⟨Account.Conserved.buyStep haccount hstep, h.opened, fun state heq => by cases heq⟩
  | settle hsettle =>
    refine ⟨?_, h.opened, fun state heq => by cases heq⟩
    change Account.Conserved (TradedSession.trading _).account
    rw [(settleTarget_ok hsettle).1]
    exact haccount.openMarked
  | close hclose =>
    refine ⟨?_, (fun opened hopened => by cases hopened), ?_⟩
    · change Account.Conserved (StrategyState.account _)
      rw [(closeSession_ok hclose).2.1]
      exact haccount.closed
    · intro state heq
      cases heq
      exact closeSession_booked hclose
  | restore hlast hrows =>
    refine ⟨?_, (fun opened hopened => by cases hopened), ?_⟩
    · change Account.Conserved (StrategyState.account _)
      rw [restoreState_account (h.booked _ rfl) hlast hrows]
      refine ⟨haccount.cash, fun id position hlookup => haccount.held id position ?_⟩
      rw [← hlookup]
      exact (AList.perm_lookup (OrderedMap.sortEntries_perm _)).symm
    · intro state heq
      cases heq
      exact restoreState_booked

lemma initialState_conserved (sim : Simulation F S E) :
    (Phase.between (initialState sim) : Phase F S E).Conserved := by
  refine ⟨⟨sub_self _, ?_⟩, (fun opened hopened => by cases hopened), ?_⟩
  · intro id position hlookup
    cases hlookup
  · intro state heq
    cases heq
    exact initialState_booked sim

/-- The daily row of a session shows the same gap between its NAVs, before and after trading. -/
lemma daily_nav_gap {sim : Simulation F S E} {reportIndex : ℤ} {opened : OpenedSession}
    {traded : TradedSession F E} {state next : StrategyState F S} {record : SessionRecord F E}
    (hexact : sim.rounding = .exact)
    (h : (Phase.traded state session reportIndex opened traded).Conserved)
    (hclose : closeSession sim session reportIndex opened traded state = .ok (next, record)) :
    record.daily.preTradeGrossNav - record.daily.preTradeNetNav = opened.account.cumulativeCost
      ∧ record.daily.grossNav - record.daily.netNav
        = record.daily.cumulativeTransactionCost := by
  obtain ⟨-, -, -, hdaily⟩ := closeSession_ok hclose
  rw [hexact] at hdaily
  rw [hdaily]
  exact ⟨h.opened opened rfl, h.account.nav traded.marks⟩

/-- Conservation in exact arithmetic, in every phase that a run of the simulator passes
through: between sessions, fresh or restored, and before and after every order and mark. -/
theorem account_conservation {sim : Simulation F S E} {phase : Phase F S E}
    {labels : List SimulatorLabel} (hexact : sim.rounding = .exact)
    (hexec : Exec (Move sim) (.between (initialState sim)) labels phase) :
    phase.account.Conserved
      ∧ (∀ marks, navOf sim.rounding phase.account.grossCash phase.account.positions marks
          - navOf sim.rounding phase.account.netCash phase.account.positions marks
            = phase.account.cumulativeCost)
      ∧ (∀ order outcome position,
          executeOrder sim.rounding sim.data sim.costs phase.account order = .ok outcome →
          order.side = .sell → outcome.order.rejectionReason = none →
          phase.account.positions.lookup order.instrument = some position →
          position.executionShares = order.quantity →
          order.instrument ∉ (phase.account.settle sim.rounding outcome).positions)
      ∧ ∀ state session reportIndex opened traded next record,
          phase = .traded state session reportIndex opened traded →
          closeSession sim session reportIndex opened traded state = .ok (next, record) →
          record.daily.preTradeGrossNav - record.daily.preTradeNetNav
              = opened.account.cumulativeCost
            ∧ record.daily.grossNav - record.daily.netNav
              = record.daily.cumulativeTransactionCost := by
  have hphase : phase.Conserved :=
    hexec.invariant (fun _ _ _ h hmove => hmove.conserved hexact h) (initialState_conserved sim)
  refine ⟨hphase.account, ?_, ?_, ?_⟩
  · intro marks
    rw [hexact]
    exact hphase.account.nav marks
  · intro order outcome position hexecute hside hfilled hposition hall
    exact liquidated_absent hside hposition hall hexecute hfilled
  · intro state session reportIndex opened traded next record heq hclose
    subst heq
    exact daily_nav_gap hexact hphase hclose

/-- Two stocks bought on the second session and sold for a third one on the third. -/
def rotatingSimulation : Simulation ℚ Unit Unit where
  rounding := .exact
  floats := rationalBinary64
  data := sampleMarket fun session id => some (10 + id + session)
  costs := sampleCosts 5
  initialCash := 100000
  initialCash_pos := hundredThousand_pos
  decide := plannedDecisions fun session =>
    if session = 1 then some (equalTarget 1 [2, 1] nodup_second_first)
    else if session = 2 then some (equalTarget 2 [3, 1] nodup_third_first)
    else none

lemma rotatingSimulation_runs :
    stoppedBy (runSessions rotatingSimulation [1, 2, 3] 0 [1, 2, 3]
      (initialState rotatingSimulation)) = none := by
  decide +kernel

theorem account_conservation_rotating :
    (okValue _ rotatingSimulation_runs).1.account.Conserved := by
  obtain ⟨labels, hexec⟩ := runSessions_exec (okValue_eq rotatingSimulation_runs)
  exact (account_conservation rfl hexec).1

end ThesisTrace.Strategy
