import ThesisTrace.Library.Outcomes
import ThesisTrace.Strategy.SessionExecution

/-!
# Solvency of the Strategy account

Buys are sized by an affordability search, sells are not checked. Net cash stays non-negative
in every run whose orders are funded: a filled sale and the cash before it cover its cost, and
the affordability check of a buy does not round the outlay down below the cash.
-/

namespace ThesisTrace.Strategy
open Transaction LabelledTransition

variable {F S E : Type} {R : Rounding} {costs : Costs} {data : MarketData} {session : Session}

/-! ### Funded orders -/

def orderCost (R : Rounding) (costs : Costs) (side : Side) (price : ExecutionPrice)
    (children : List ℕ) : ℚ :=
  totalChildCost R (childCosts R costs side
    (R.accounting (price.rawOpen * executionPriceFactor R side costs)) 0 children)

/-- What a sale of `removed` units adds to the cash before its cost. -/
def saleProceeds (R : Rounding) (costs : Costs) (price : ExecutionPrice) (removed : ℚ) : ℚ :=
  R.accounting (R.accounting (removed * price.adjustedOpen) * executionPriceFactor R .sell costs)

/-- What a buy takes from the cash before its cost. -/
def buyNotional (R : Rounding) (costs : Costs) (price : ExecutionPrice) (quantity : ℕ) : ℚ :=
  R.money (R.ambient (quantity * R.accounting (price.rawOpen * executionPriceFactor R .buy costs)))

/-- If the market takes the sale, its proceeds and the cash before it cover its cost. The split
into child orders is the one that `execute_order` makes: a sale of the whole position may end in
an odd lot. -/
def Order.SaleFunded (R : Rounding) (data : MarketData) (costs : Costs) (account : Account)
    (order : Order) : Prop :=
  orderRejection data order = none →
    ∀ price ∈ data.executionPrices order.context.session order.instrument,
    ∀ position ∈ account.positions.lookup order.instrument,
    ∀ profile ∈ data.instruments order.instrument,
    ∀ removed, removedUnits R position order.quantity = .ok removed →
    ∀ children, splitChildOrders profile.board order.quantity
      (decide (position.executionShares = order.quantity)) = .ok children →
    orderCost R costs .sell price children ≤ account.netCash + saleProceeds R costs price removed

/-- A buy whose rounded outlay fits the cash fits it without the rounding. -/
def Order.BuyFunded (R : Rounding) (data : MarketData) (costs : Costs) (account : Account)
    (order : Order) : Prop :=
  orderRejection data order = none →
    ∀ price ∈ data.executionPrices order.context.session order.instrument,
    ∀ profile ∈ data.instruments order.instrument,
    ∀ children, splitChildOrders profile.board order.quantity false = .ok children →
    R.ambient (buyNotional R costs price order.quantity + orderCost R costs .buy price children)
      ≤ account.netCash →
    buyNotional R costs price order.quantity + orderCost R costs .buy price children
      ≤ account.netCash

/-- The order that a sell intent submits, if any, is funded. -/
def SellIntent.Funded (R : Rounding) (terms : TargetTerms) (account : Account) (id : InstrumentId)
    (intent : SellIntent) : Prop :=
  0 < intent.legalQuantity →
    (terms.sellOrder id intent).SaleFunded R terms.data terms.costs account

/-- The order that a buy intent submits, if any, is funded. -/
def BuyIntent.Funded (R : Rounding) (terms : TargetTerms) (account : Account) (id : InstrumentId) :
    BuyIntent → Prop
  | .sized deficit unrounded _ quantity => 0 < quantity →
      (terms.buyOrder id deficit unrounded quantity).BuyFunded R terms.data terms.costs account
  | _ => True

/-- The order that a move submits, if any, is funded. -/
def Move.Funded (sim : Simulation F S E) (phase : Phase F S E) (label : SimulatorLabel) : Prop :=
  match phase, label with
  | .selling _ frame _ trading, .sell id =>
    ∀ position ∈ trading.account.positions.lookup id,
      ∀ intent?, sellIntent sim.rounding frame.terms frame.opened.marks id position = .ok intent? →
      ∀ intent ∈ intent?, intent.Funded sim.rounding frame.terms trading.account id
  | .buying _ frame _ _ loop, .buy id =>
    ∀ intent, buyIntent sim.rounding frame.terms loop.trading.account.netCash
        (frame.terms.deficit loop.budget id) id = .ok intent →
      intent.Funded sim.rounding frame.terms loop.trading.account id
  | _, _ => True

/-! ### Orders -/

/-- Costs are sums in the default context, which rounds them to themselves. -/
lemma ambient_orderCost (side : Side) (price : ExecutionPrice) (children : List ℕ) :
    R.ambient (orderCost R costs side price children) = orderCost R costs side price children := by
  unfold orderCost
  rw [totalChildCost_eq, ambient_ambientSum]

/-- Subtracting a representable amount from at least as much leaves no debt. -/
lemma money_sub_nonneg {cash cost : ℚ} (hcost : R.ambient cost = cost) (h : cost ≤ cash) :
    0 ≤ R.money (R.ambient (R.ambient cash - cost)) := by
  rw [Rounding.money_ambient]
  apply Rounding.ambient_nonneg
  have hround := R.ambient_mono h
  rw [hcost] at hround
  exact sub_nonneg.mpr hround

lemma rejected_of_orderRejection {account : Account} {order : Order} {outcome : OrderOutcome}
    {reason : RejectionReason} (hreason : orderRejection data order = some reason)
    (h : executeOrder R data costs account order = .ok outcome) :
    outcome = rejectOrder account order reason := by
  unfold executeOrder at h
  simp only [hreason, bind_ok_iff, require_ok_iff, exists_const, pure_ok_iff] at h
  exact h.2.symm

lemma sale_netCash_nonneg {account : Account} {order : Order} {outcome : OrderOutcome}
    (hcash : 0 ≤ account.netCash) (hside : order.side = .sell)
    (hfunded : order.SaleFunded R data costs account)
    (h : executeOrder R data costs account order = .ok outcome) :
    0 ≤ outcome.settlement.netCash := by
  cases hrejection : orderRejection data order with
  | some reason =>
    rw [rejected_of_orderRejection hrejection h]
    exact hcash
  | none =>
    rcases executeOrder_cases h with ⟨reason, rfl⟩ | ⟨price, hprice, hfill⟩
    · exact hcash
    · obtain ⟨profile, children, position, removed, hprofile, hchildren, hposition, hremoved,
        hcost, -, hnet, -⟩ := fillOrder_sell hside hfill
      simp only [hposition, Option.map_some, Option.some.injEq] at hchildren
      have hcover := hfunded hrejection price hprice position hposition profile hprofile removed
        hremoved children hchildren
      rw [hnet, hcost]
      exact money_sub_nonneg (ambient_orderCost .sell price children) hcover

lemma buy_netCash_nonneg {account : Account} {order : Order} {outcome : OrderOutcome}
    {price : ExecutionPrice} {profile : InstrumentProfile}
    (hcash : 0 ≤ account.netCash) (hside : order.side = .buy)
    (hfunded : order.BuyFunded R data costs account)
    (hprice : data.executionPrices order.context.session order.instrument = some price)
    (hprofile : data.instruments order.instrument = some profile)
    (haffordable : isAffordable R profile.board
      (R.accounting (price.rawOpen * executionPriceFactor R .buy costs)) account.netCash costs
      order.quantity = .ok true)
    (h : executeOrder R data costs account order = .ok outcome) :
    0 ≤ outcome.settlement.netCash := by
  cases hrejection : orderRejection data order with
  | some reason =>
    rw [rejected_of_orderRejection hrejection h]
    exact hcash
  | none =>
    rcases executeOrder_cases h with ⟨reason, rfl⟩ | ⟨price', hprice', hfill⟩
    · exact hcash
    · have hsame : some price = some price' := hprice.symm.trans hprice'
      cases hsame
      obtain ⟨profile', children, _, _, hprofile', hchildren, -, -, hcost, hsettle⟩ :=
        fillOrder_buy hside hfill
      have hsameProfile : some profile = some profile' := hprofile.symm.trans hprofile'
      cases hsameProfile
      obtain ⟨children', hchildren', hfits⟩ := isAffordable_spec haffordable
      have hsameChildren : Except.ok children = Except.ok children' :=
        hchildren.symm.trans hchildren'
      cases hsameChildren
      have houtlay := hfunded hrejection price hprice profile hprofile children hchildren hfits
      rw [hsettle]
      dsimp only
      rw [hcost]
      apply money_sub_nonneg (ambient_orderCost .buy price children)
      unfold buyNotional at houtlay
      linarith

/-- Without rounding a buy that fits the cash is funded. -/
lemma Order.buyFunded_exact (data : MarketData) (costs : Costs) (account : Account)
    (order : Order) : order.BuyFunded .exact data costs account :=
  fun _ _ _ _ _ _ _ hfits => hfits

/-! ### Constraint events -/

@[simp] lemma Journal.constraints_record (journal : Journal E) (outcome : OrderOutcome) :
    (journal.record outcome).constraints = journal.constraints := rfl

@[simp] lemma Journal.constraints_diagnose (journal : Journal E) (diagnostic : Diagnostic E) :
    (journal.diagnose diagnostic).constraints = journal.constraints := rfl

@[simp] lemma Journal.constraints_constrain (journal : Journal E) (event : ConstraintEvent) :
    (journal.constrain event).constraints = journal.constraints ++ [event] := rfl

@[simp] lemma buyDiagnose_constraints (id : InstrumentId) (unrounded : ℤ) (legal : ℕ)
    (journal : Journal E) :
    (buyDiagnose session id unrounded legal journal).constraints = journal.constraints := by
  unfold buyDiagnose
  split
  · split <;> simp
  · simp

lemma sellStep_constraints {terms : TargetTerms} {marks : Marks} {trading next : Trading E}
    {id : InstrumentId} (h : sellStep R terms marks trading id = .ok next) :
    ∀ event ∈ next.journal.constraints, event ∈ trading.journal.constraints
      ∨ event.availableCash = trading.account.netCash := by
  unfold sellStep at h
  simp only [bind_ok_iff, found_ok_iff] at h
  obtain ⟨position, -, intent?, -, h⟩ := h
  split at h
  · rw [pure_ok_iff] at h
    subst h
    exact fun event hevent => .inl hevent
  · split at h
    · rw [pure_ok_iff] at h
      subst h
      intro event hevent
      simp only [Journal.constraints_diagnose, Journal.constraints_constrain, List.mem_append,
        List.mem_singleton] at hevent
      rcases hevent with hold | rfl
      · exact .inl hold
      · exact .inr rfl
    · unfold trade at h
      simp only [bind_ok_iff, pure_ok_iff] at h
      obtain ⟨outcome, -, rfl⟩ := h
      exact fun event hevent => .inl hevent

lemma buySized_constraints {terms : TargetTerms} {buying next : Buying E} {id : InstrumentId}
    {deficit : ℚ} {unrounded : ℤ} {legal quantity : ℕ}
    (h : buySized R terms buying id deficit unrounded legal quantity = .ok next) :
    ∀ event ∈ next.trading.journal.constraints, event ∈ buying.trading.journal.constraints
      ∨ event.availableCash = buying.trading.account.netCash := by
  have hjournal : ∀ event ∈ (if 0 < deficit ∧ (legal = 0 ∨ quantity < legal) then
        buying.trading.journal.constrain (terms.buyConstraint id deficit unrounded legal quantity
          buying.trading.account.netCash)
      else buying.trading.journal).constraints, event ∈ buying.trading.journal.constraints
        ∨ event.availableCash = buying.trading.account.netCash := by
    intro event hevent
    split at hevent
    · simp only [Journal.constraints_constrain, List.mem_append, List.mem_singleton] at hevent
      rcases hevent with hold | rfl
      · exact .inl hold
      · exact .inr rfl
    · exact .inl hevent
  unfold buySized at h
  dsimp only at h
  split at h
  · rw [pure_ok_iff] at h
    subst h
    simpa only [buyDiagnose_constraints] using hjournal
  · simp only [bind_ok_iff, pure_ok_iff] at h
    obtain ⟨outcome, -, rfl⟩ := h
    simpa only [Journal.constraints_record] using hjournal

lemma buyStep_constraints {terms : TargetTerms} {buying next : Buying E} {id : InstrumentId}
    (h : buyStep R terms buying id = .ok next) :
    ∀ event ∈ next.trading.journal.constraints, event ∈ buying.trading.journal.constraints
      ∨ event.availableCash = buying.trading.account.netCash := by
  unfold buyStep at h
  simp only [bind_ok_iff] at h
  obtain ⟨intent, -, h⟩ := h
  split at h
  · rw [pure_ok_iff] at h
    subst h
    exact fun event hevent => .inl hevent
  · rw [pure_ok_iff] at h
    subst h
    exact fun event hevent => .inl hevent
  · rw [pure_ok_iff] at h
    subst h
    exact fun event hevent => .inl hevent
  · exact buySized_constraints h

/-! ### Runs -/

/-- The invariant of a funded run. -/
structure Phase.Solvent (phase : Phase F S E) : Prop where
  netCash : 0 ≤ phase.account.netCash
  constraints : ∀ event ∈ phase.journal.constraints, 0 ≤ event.availableCash
  booked : ∀ state, phase = .between state → state.Booked

/-- New constraint events carry the cash of an account that is still solvent. -/
lemma constraints_solvent {before after : List ConstraintEvent} {cash : ℚ} (hcash : 0 ≤ cash)
    (hbefore : ∀ event ∈ before, 0 ≤ event.availableCash)
    (hafter : ∀ event ∈ after, event ∈ before ∨ event.availableCash = cash) :
    ∀ event ∈ after, 0 ≤ event.availableCash := by
  intro event hevent
  rcases hafter event hevent with hold | hnew
  · exact hbefore event hold
  · rw [hnew]
    exact hcash

lemma emptyTargetDiagnostics_constraints (target : PendingTarget) :
    (emptyTargetDiagnostics session target : Journal E).constraints = [] := by
  unfold emptyTargetDiagnostics
  split <;> rfl

lemma sellStep_solvent {sim : Simulation F S E} {state : StrategyState F S}
    {frame : SessionFrame} {id : InstrumentId} {rest : List InstrumentId}
    {trading next : Trading E} (hcash : 0 ≤ trading.account.netCash)
    (hfunded : Move.Funded sim (.selling state frame (id :: rest) trading) (.sell id))
    (hstep : sellStep sim.rounding frame.terms frame.opened.marks trading id = .ok next) :
    0 ≤ next.account.netCash := by
  rcases sellStep_account hstep with heq | ⟨position, intent, outcome, hposition, hintent, hpos,
    hexecute, heq⟩
  · rw [heq]
    exact hcash
  · rw [heq]
    have hsale := hfunded position hposition (some intent) hintent intent rfl hpos
    exact sale_netCash_nonneg hcash rfl hsale hexecute

lemma buyStep_solvent {sim : Simulation F S E} {state : StrategyState F S}
    {frame : SessionFrame} {events : List ValuationEvent} {id : InstrumentId}
    {rest : List InstrumentId} {buying next : Buying E}
    (hcash : 0 ≤ buying.trading.account.netCash)
    (hfunded : Move.Funded sim (.buying state frame events (id :: rest) buying) (.buy id))
    (hstep : buyStep sim.rounding frame.terms buying id = .ok next) :
    0 ≤ next.trading.account.netCash := by
  rcases buyStep_account hstep with heq | ⟨deficit, unrounded, legal, quantity, outcome, hintent,
    hpos, hexecute, heq⟩
  · rw [heq]
    exact hcash
  · rw [heq]
    obtain ⟨price, profile, hprice, hprofile, -, haffordable⟩ := buyIntent_sized hintent hpos
    exact buy_netCash_nonneg hcash rfl (hfunded _ hintent hpos) hprice hprofile haffordable
      hexecute

lemma Move.solvent {sim : Simulation F S E} {phase next : Phase F S E} {label : SimulatorLabel}
    (h : phase.Solvent) (hmove : Move sim phase label next)
    (hfunded : Move.Funded sim phase label) : next.Solvent := by
  have hcash := h.netCash
  have hconstraints := h.constraints
  cases hmove with
  | openIdle hpending hopen =>
    refine ⟨?_, (fun event hevent => by cases hevent), fun state heq => by cases heq⟩
    change 0 ≤ (OpenedSession.account _).netCash
    rw [(openSession_ok hopen).2]
    exact hcash
  | openTarget hpending hcheck hopen hreport hsizing =>
    refine ⟨?_, ?_, fun state heq => by cases heq⟩
    · change 0 ≤ (OpenedSession.account _).netCash
      rw [(openSession_ok hopen).2]
      exact hcash
    · intro event hevent
      simp only [Phase.journal, emptyTargetDiagnostics_constraints] at hevent
      cases hevent
  | sell hstep =>
    refine ⟨sellStep_solvent hcash hfunded hstep, ?_, fun state heq => by cases heq⟩
    exact constraints_solvent hcash hconstraints (sellStep_constraints hstep)
  | turnToBuys hremark =>
    have htrading := (remarkForBuys_ok hremark).1
    refine ⟨?_, ?_, fun state heq => by cases heq⟩
    · change 0 ≤ (Buying.trading _).account.netCash
      rw [htrading]
      exact hcash
    · change ∀ event ∈ (Buying.trading _).journal.constraints, 0 ≤ event.availableCash
      rw [htrading]
      exact hconstraints
  | buy hstep =>
    refine ⟨buyStep_solvent hcash hfunded hstep, ?_, fun state heq => by cases heq⟩
    exact constraints_solvent hcash hconstraints (buyStep_constraints hstep)
  | settle hsettle =>
    have htrading := (settleTarget_ok hsettle).1
    refine ⟨?_, ?_, fun state heq => by cases heq⟩
    · change 0 ≤ (TradedSession.trading _).account.netCash
      rw [htrading]
      exact hcash
    · change ∀ event ∈ (TradedSession.trading _).journal.constraints, 0 ≤ event.availableCash
      rw [htrading]
      exact hconstraints
  | close hclose =>
    refine ⟨?_, (fun event hevent => by cases hevent), ?_⟩
    · change 0 ≤ (StrategyState.account _).netCash
      rw [(closeSession_ok hclose).2.1]
      exact hcash
    · intro state heq
      cases heq
      exact closeSession_booked hclose
  | restore hlast hrows =>
    refine ⟨?_, (fun event hevent => by cases hevent), ?_⟩
    · change 0 ≤ (StrategyState.account _).netCash
      rw [restoreState_account (h.booked _ rfl) hlast hrows]
      exact hcash
    · intro state heq
      cases heq
      exact restoreState_booked

lemma markClosePositions_error {positions : Positions} {error : StrategyError}
    (h : markClosePositions data session positions = .error error) :
    ∃ id, error = .invalidClose id session ∨ error = .missingClose id session := by
  unfold markClosePositions at h
  split at h
  · next hfailed =>
    cases h
    obtain ⟨e, -, herror⟩ := List.exists_of_findSome?_eq_some hfailed
    cases hmark : closeMark data session e.1 e.2 <;>
      simp only [hmark, CloseMark.error?, reduceCtorEq, Option.some.injEq] at herror
    subst herror
    unfold closeMark at hmark
    split at hmark <;> split at hmark <;> cases hmark
    · exact ⟨e.1, .inl rfl⟩
    · exact ⟨e.1, .inr rfl⟩
  · cases h

lemma positionPayload_error {positions : Positions} {error : StrategyError}
    (h : positionPayload positions = .error error) : error = .keyError := by
  obtain ⟨e, -, herror⟩ := mapM_error h
  unfold positionRow at herror
  rcases bind_error herror with hfound | ⟨_, -, hpure⟩
  · exact (found_error hfound).2
  · cases hpure

/-- The guard of the Close is the only place that reports negative net cash. -/
lemma closeSession_negativeNetCash {sim : Simulation F S E} {reportIndex : ℤ}
    {opened : OpenedSession} {traded : TradedSession F E} {state : StrategyState F S}
    (h : closeSession sim session reportIndex opened traded state
      = .error StrategyError.negativeNetCash) : traded.trading.account.netCash < 0 := by
  unfold closeSession at h
  rcases bind_error h with hguard | ⟨_, -, h⟩
  · exact not_le.mp (require_error hguard).1
  · rcases bind_error h with hclose | ⟨closed, -, h⟩
    · obtain ⟨id, herror⟩ := markClosePositions_error hclose
      rcases herror with herror | herror <;> cases herror
    · rcases bind_error h with hpayload | ⟨payload, -, h⟩
      · cases positionPayload_error hpayload
      · rcases bind_error h with hdecision | ⟨decision, -, h⟩
        · obtain ⟨_, -, herror⟩ := mapError_error_iff.mp hdecision
          cases herror
        · cases h

/-- Solvency of every phase of a funded run, after every single order: net cash and the
available cash of every constraint event are non-negative, and the Close does not fail on
negative net cash. -/
theorem account_solvency {sim : Simulation F S E} {phase : Phase F S E}
    {labels : List SimulatorLabel}
    (hexec : Exec (restrict (Move sim) (Move.Funded sim)) (.between (initialState sim)) labels
      phase) :
    0 ≤ phase.account.netCash
      ∧ (∀ event ∈ phase.journal.constraints, 0 ≤ event.availableCash)
      ∧ ∀ state session reportIndex opened traded,
          phase = .traded state session reportIndex opened traded →
          closeSession sim session reportIndex opened traded state
            ≠ .error StrategyError.negativeNetCash := by
  have hstart : (Phase.between (initialState sim) : Phase F S E).Solvent := by
    refine ⟨sim.initialCash_pos.le, (fun event hevent => by cases hevent), ?_⟩
    intro state heq
    cases heq
    exact initialState_booked sim
  have hphase : phase.Solvent :=
    hexec.invariant (fun _ _ _ h hmove => hmove.1.solvent h hmove.2) hstart
  refine ⟨hphase.netCash, hphase.constraints, ?_⟩
  intro state session reportIndex opened traded heq herror
  subst heq
  exact absurd (closeSession_negativeNetCash herror) (not_lt.mpr hphase.netCash)

/-! ### A funded run -/

instance (account : Account) (order : Order) :
    Decidable (order.SaleFunded R data costs account) :=
  inferInstanceAs (Decidable (_ → _))

instance (account : Account) (order : Order) :
    Decidable (order.BuyFunded R data costs account) :=
  inferInstanceAs (Decidable (_ → _))

instance (terms : TargetTerms) (account : Account) (id : InstrumentId) (intent : SellIntent) :
    Decidable (intent.Funded R terms account id) :=
  inferInstanceAs (Decidable (_ → _))

instance (terms : TargetTerms) (account : Account) (id : InstrumentId) (intent : BuyIntent) :
    Decidable (intent.Funded R terms account id) :=
  match intent with
  | .sized _ _ _ _ => inferInstanceAs (Decidable (_ → _))
  | .skipped => instDecidableTrue
  | .unavailable _ _ => instDecidableTrue
  | .ineligible => instDecidableTrue

/-- One stock at 10 that is bought on the second session and sold on the third. -/
def solventSimulation : Simulation ℚ Unit Unit where
  rounding := .decimal
  floats := rationalBinary64
  data := sampleMarket fun _ _ => some 10
  costs := sampleCosts 5
  initialCash := 10000
  initialCash_pos := tenThousand_pos
  decide := plannedDecisions fun session =>
    if session = 1 then some (equalTarget 1 [1] nodup_first)
    else if session = 2 then some (equalTarget 2 [] nodup_none)
    else none

/-! The run, move by move. -/

def solventOpened1 : Ran (openSession .decimal solventSimulation.data 1
    (initialState solventSimulation).account) :=
  ran _ (by decide +kernel)

/-- The first session has no target. -/
def solventClosed1 : Ran (closeSession solventSimulation 1 0 solventOpened1.1
    solventOpened1.1.untraded (initialState solventSimulation)) :=
  ran _ (by decide +kernel)

def solventOpened2 : Ran (openSession .decimal solventSimulation.data 2
    solventClosed1.1.1.account) :=
  ran _ (by decide +kernel)

def solventTarget2 : PendingTarget :=
  equalTarget 1 [1] nodup_first

def solventSizing2 : Ran (sizeTarget .decimal solventTarget2 solventOpened2.1.account.positions
    solventOpened2.1.marks solventOpened2.1.preNetNav) :=
  ran _ (by decide +kernel)

def solventFrame2 : SessionFrame :=
  ⟨1, solventOpened2.1, ⟨solventSimulation.data, solventSimulation.costs, 2, solventTarget2,
    solventSizing2.1⟩⟩

def solventTurned : Ran (@remarkForBuys Unit .decimal solventFrame2.terms
    ⟨solventOpened2.1.account, emptyTargetDiagnostics 2 solventTarget2⟩) :=
  ran _ (by decide +kernel)

def solventBought : Ran (buyStep .decimal solventFrame2.terms solventTurned.1.1 1) :=
  ran _ (by decide +kernel)

def solventTraded : Ran (settleTarget .decimal rationalBinary64 solventSimulation.data 2
    solventOpened2.1 solventTurned.1.2 solventBought.1.trading) :=
  ran _ (by decide +kernel)

def solventClosed2 : Ran (closeSession solventSimulation 2 1 solventOpened2.1 solventTraded.1
    solventClosed1.1.1) :=
  ran _ (by decide +kernel)

def solventOpened3 : Ran (openSession .decimal solventSimulation.data 3
    solventClosed2.1.1.account) :=
  ran _ (by decide +kernel)

def solventTarget3 : PendingTarget :=
  equalTarget 2 [] nodup_none

def solventSizing3 : Ran (sizeTarget .decimal solventTarget3 solventOpened3.1.account.positions
    solventOpened3.1.marks solventOpened3.1.preNetNav) :=
  ran _ (by decide +kernel)

def solventFrame3 : SessionFrame :=
  ⟨2, solventOpened3.1, ⟨solventSimulation.data, solventSimulation.costs, 3, solventTarget3,
    solventSizing3.1⟩⟩

def solventSelling : Trading Unit :=
  ⟨solventOpened3.1.account, emptyTargetDiagnostics 3 solventTarget3⟩

def solventSold : Ran (sellStep .decimal solventFrame3.terms solventOpened3.1.marks
    solventSelling 1) :=
  ran _ (by decide +kernel)

lemma solvent_pending : solventClosed2.1.1.pendingTarget = some solventTarget3 := by
  obtain ⟨observation, decision, hdecide, htarget, -⟩ := closeSession_target solventClosed2.2
  rw [← Except.ok.inj hdecide] at htarget
  exact htarget

/-- The funded run buys 900 shares and sells all of them. -/
theorem account_solvency_solvent :
    (solventBought.1.trading.account.positions.lookup 1).map Position.executionShares = some 900
      ∧ (solventSold.1.account.positions.lookup 1).map Position.executionShares = none
      ∧ 0 ≤ solventSold.1.account.netCash := by
  have hidle : Exec (restrict (Move solventSimulation) (Move.Funded solventSimulation))
      (.between (initialState solventSimulation)) [.openIdle 1, .close]
      (.between solventClosed1.1.1) :=
    .snoc (.single ⟨Move.openIdle rfl solventOpened1.2, trivial⟩)
      ⟨Move.close solventClosed1.pair, trivial⟩
  have hopen : Move solventSimulation (.between solventClosed1.1.1) (.openTarget 2)
      (.selling solventClosed1.1.1 solventFrame2 []
        ⟨solventOpened2.1.account, emptyTargetDiagnostics 2 solventTarget2⟩) :=
    Move.openTarget rfl rfl solventOpened2.2 one_pos solventSizing2.2
  have hturn : Move solventSimulation
      (.selling solventClosed1.1.1 solventFrame2 []
        ⟨solventOpened2.1.account, emptyTargetDiagnostics 2 solventTarget2⟩) .turnToBuys
      (.buying solventClosed1.1.1 solventFrame2 solventTurned.1.2 [1] solventTurned.1.1) :=
    Move.turnToBuys solventTurned.pair
  have hbuy : Move solventSimulation
      (.buying solventClosed1.1.1 solventFrame2 solventTurned.1.2 [1] solventTurned.1.1) (.buy 1)
      (.buying solventClosed1.1.1 solventFrame2 solventTurned.1.2 [] solventBought.1) :=
    Move.buy solventBought.2
  have hbuyFunded : ∀ intent,
      buyIntent .decimal solventFrame2.terms solventTurned.1.1.trading.account.netCash
        (solventFrame2.terms.deficit solventTurned.1.1.budget 1) 1 = .ok intent →
      intent.Funded .decimal solventFrame2.terms solventTurned.1.1.trading.account 1 := by
    decide +kernel
  have hsettle : Move solventSimulation
      (.buying solventClosed1.1.1 solventFrame2 solventTurned.1.2 [] solventBought.1)
      .settle (.traded solventClosed1.1.1 2 1 solventOpened2.1 solventTraded.1) :=
    Move.settle solventTraded.2
  have hclose : Move solventSimulation
      (.traded solventClosed1.1.1 2 1 solventOpened2.1 solventTraded.1) .close
      (.between solventClosed2.1.1) :=
    Move.close solventClosed2.pair
  have hkeys : (OrderedMap.sorted solventOpened3.1.account.positions).keys = [1] := by
    decide +kernel
  have hopenSale : Move solventSimulation (.between solventClosed2.1.1) (.openTarget 3)
      (.selling solventClosed2.1.1 solventFrame3 [1] solventSelling) := by
    rw [← hkeys]
    exact Move.openTarget solvent_pending rfl solventOpened3.2 two_pos solventSizing3.2
  have hsell : Move solventSimulation
      (.selling solventClosed2.1.1 solventFrame3 [1] solventSelling) (.sell 1)
      (.selling solventClosed2.1.1 solventFrame3 [] solventSold.1) :=
    Move.sell solventSold.2
  have hsaleFunded : ∀ position ∈ solventSelling.account.positions.lookup 1,
      ∀ intent?, sellIntent .decimal solventFrame3.terms solventOpened3.1.marks 1 position
        = .ok intent? →
      ∀ intent ∈ intent?,
        intent.Funded .decimal solventFrame3.terms solventSelling.account 1 := by
    decide +kernel
  have hbought := ((hidle.snoc ⟨hopen, trivial⟩).snoc ⟨hturn, trivial⟩).snoc ⟨hbuy, hbuyFunded⟩
  have hheld := (hbought.snoc ⟨hsettle, trivial⟩).snoc ⟨hclose, trivial⟩
  have hsold := (hheld.snoc ⟨hopenSale, trivial⟩).snoc ⟨hsell, hsaleFunded⟩
  exact ⟨by decide +kernel, by decide +kernel, (account_solvency hsold).1⟩

/-- One stock at 0.50 that falls to 0.48, a minimum commission of 50 and 101 of initial cash:
bought on the second session and sold on the third. -/
def insolventSimulation : Simulation ℚ Unit Unit where
  rounding := .decimal
  floats := rationalBinary64
  data := sampleMarket fun session _ => if session ≤ 2 then some (1 / 2) else some (12 / 25)
  costs := sampleCosts 50
  initialCash := 101
  initialCash_pos := by norm_num
  decide := plannedDecisions fun session =>
    if session = 1 then some (equalTarget 1 [1] nodup_first)
    else if session = 2 then some (equalTarget 2 [] nodup_none)
    else none

/-- The sale brings 48 to a net cash of 1 and costs 50: the session loop fails on the negative
net cash that it leaves. -/
theorem account_solvency_sellCost :
    stoppedBy (executeStrategy insolventSimulation [1, 2, 3] 1 none)
      = some StrategyError.negativeNetCash := by
  decide +kernel

end ThesisTrace.Strategy
