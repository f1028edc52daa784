import ThesisTrace.Strategy.Execution
import ThesisTrace.Strategy.MetricsStreaming
import ThesisTrace.Strategy.OrderExecution

/-!
# What a session does

Inversion of the session loop: the marks, the sell and buy steps and the Close, each with the
account it leaves. Between sessions the last daily row records the cash of the account, so a
restored account has the cash that the execution left.
-/

namespace ThesisTrace.Strategy
open Transaction LabelledTransition

variable {F S E : Type} {R : Rounding} {data : MarketData} {session : Session}

/-! ### Marks -/

lemma markPositions_ok {positions marked : Positions} {events : List ValuationEvent}
    (h : markPositions R data session positions = .ok (marked, events)) :
    marked = openMarked data session positions ∧ events = openEvents R data session positions := by
  unfold markPositions at h
  split at h
  · cases h
  · cases h
    exact ⟨rfl, rfl⟩

lemma markClosePositions_ok {positions closed : Positions}
    (h : markClosePositions data session positions = .ok closed) :
    closed = closeMarked data session positions
      ∧ ∀ e ∈ positions.entries, (closeMark data session e.1 e.2).error? = none := by
  unfold markClosePositions at h
  split at h
  · cases h
  · next hnone =>
    cases h
    rw [List.findSome?_eq_none_iff] at hnone
    exact ⟨rfl, hnone⟩

/-- An Open mark moves only the last adjusted price. -/
lemma OpenMark.position_some {mark : OpenMark} {position marked : Position}
    (h : mark.position position = some marked) :
    ∃ price, marked = { position with lastAdjustedPrice := price } := by
  cases mark <;> simp only [OpenMark.position, Option.some.injEq, reduceCtorEq] at h
  · exact ⟨_, h.symm⟩
  · exact ⟨position.lastAdjustedPrice, h.symm⟩
  · exact ⟨position.lastAdjustedPrice, h.symm⟩

lemma lookup_openMarked {positions : Positions} {id : InstrumentId} {marked : Position}
    (h : (openMarked data session positions).lookup id = some marked) :
    ∃ position price, positions.lookup id = some position
      ∧ marked = { position with lastAdjustedPrice := price } := by
  unfold openMarked at h
  rw [OrderedMap.lookup_filterMap, Option.bind_eq_some_iff] at h
  obtain ⟨position, hposition, hmarked⟩ := h
  obtain ⟨price, hprice⟩ := OpenMark.position_some hmarked
  exact ⟨position, price, hposition, hprice⟩

/-- The Close moves only the last Close price. -/
lemma lookup_closeMarked {positions : Positions} {id : InstrumentId} {closed : Position}
    (h : (closeMarked data session positions).lookup id = some closed) :
    ∃ position price, positions.lookup id = some position
      ∧ closed = { position with lastCloseAdjustedPrice := price } := by
  unfold closeMarked at h
  rw [OrderedMap.lookup_filterMap, Option.bind_eq_some_iff] at h
  obtain ⟨position, hposition, hclosed⟩ := h
  cases hmark : closeMark data session id position <;>
    simp only [hmark, CloseMark.position, Option.some.injEq] at hclosed
  · exact ⟨position, _, hposition, hclosed.symm⟩
  · exact ⟨position, position.lastCloseAdjustedPrice, hposition, hclosed.symm⟩
  · exact ⟨position, position.lastCloseAdjustedPrice, hposition, hclosed.symm⟩

lemma lookup_agePositions {positions : Positions} {id : InstrumentId} {aged : Position}
    (h : (agePositions positions).lookup id = some aged) :
    ∃ position, positions.lookup id = some position
      ∧ aged = { position with holdingAge := position.holdingAge + 1 } := by
  unfold agePositions at h
  rw [OrderedMap.lookup_filterMap, Option.bind_eq_some_iff] at h
  obtain ⟨position, hposition, haged⟩ := h
  exact ⟨position, hposition, (Option.some.inj haged).symm⟩

/-! ### Phases of a session -/

lemma openSession_ok {account : Account} {opened : OpenedSession}
    (h : openSession R data session account = .ok opened) :
    let positions := openMarked data session account.positions
    markPositions R data session account.positions
        = .ok (positions, openEvents R data session account.positions)
      ∧ opened =
        { account := { account with positions := positions }
          marks := marksOf positions
          events := openEvents R data session account.positions
          preGrossNav := navOf R account.grossCash positions (marksOf positions)
          preNetNav := navOf R account.netCash positions (marksOf positions) } := by
  unfold openSession at h
  simp only [bind_ok_iff, pure_ok_iff, Prod.exists] at h
  obtain ⟨positions, events, hmark, rfl⟩ := h
  obtain ⟨rfl, rfl⟩ := markPositions_ok hmark
  exact ⟨hmark, rfl⟩

lemma remarkForBuys_ok {terms : TargetTerms} {trading : Trading E} {start : Buying E}
    {events : List ValuationEvent}
    (h : remarkForBuys R terms trading = .ok (start, events)) :
    start.trading = ⟨{ trading.account with
        positions := openMarked terms.data terms.session trading.account.positions },
        trading.journal⟩
      ∧ events = openEvents R terms.data terms.session trading.account.positions := by
  unfold remarkForBuys at h
  simp only [bind_ok_iff, pure_ok_iff, Prod.exists, Prod.mk.injEq] at h
  obtain ⟨positions, events', hmark, rfl, rfl⟩ := h
  obtain ⟨rfl, rfl⟩ := markPositions_ok hmark
  exact ⟨rfl, rfl⟩

lemma settleTarget_ok {B : Binary64 F} {opened : OpenedSession} {events : List ValuationEvent}
    {trading : Trading E} {traded : TradedSession F E}
    (h : settleTarget R B data session opened events trading = .ok traded) :
    traded.trading = ⟨{ trading.account with
        positions := openMarked data session trading.account.positions }, trading.journal⟩
      ∧ traded.marks = marksOf (openMarked data session trading.account.positions)
      ∧ traded.events = opened.events ++ events
        ++ openEvents R data session trading.account.positions := by
  unfold settleTarget at h
  simp only [bind_ok_iff, pure_ok_iff, Prod.exists] at h
  obtain ⟨positions, post, hmark, rfl⟩ := h
  obtain ⟨rfl, rfl⟩ := markPositions_ok hmark
  exact ⟨rfl, rfl, rfl⟩

lemma closeSession_ok {sim : Simulation F S E} {reportIndex : ℤ} {opened : OpenedSession}
    {traded : TradedSession F E} {state next : StrategyState F S} {record : SessionRecord F E}
    (h : closeSession sim session reportIndex opened traded state = .ok (next, record)) :
    let account := traded.trading.account
    let closed := closeMarked sim.data session (agePositions account.positions)
    0 ≤ account.netCash
      ∧ next.account = { account with positions := closed }
      ∧ next.lastDaily = some record.daily
      ∧ record.daily = dailyObservation sim.rounding sim.floats session opened traded
          { account with positions := closed } state.lastDaily
          (navOf sim.rounding account.grossCash account.positions traded.marks)
          (navOf sim.rounding account.netCash account.positions traded.marks)
          (navOf sim.rounding account.netCash closed (closeMarksOf closed)) := by
  unfold closeSession at h
  simp only [bind_ok_iff, pure_ok_iff, require_ok_iff, exists_const, Prod.mk.injEq] at h
  obtain ⟨hcash, closed, hclosed, payload, -, decision, -, rfl, rfl⟩ := h
  obtain ⟨rfl, -⟩ := markClosePositions_ok hclosed
  exact ⟨hcash, rfl, rfl, rfl⟩

/-- The pending target of the next session is the one that the program decided. -/
lemma closeSession_target {sim : Simulation F S E} {reportIndex : ℤ} {opened : OpenedSession}
    {traded : TradedSession F E} {state next : StrategyState F S} {record : SessionRecord F E}
    (h : closeSession sim session reportIndex opened traded state = .ok (next, record)) :
    ∃ observation decision, sim.decide session reportIndex observation
        traded.trading.journal.fills traded.trading.journal.rejections state.decisionState
          = .ok decision
      ∧ next.pendingTarget = decision.target
      ∧ next.decisionState = some decision.state := by
  unfold closeSession at h
  simp only [bind_ok_iff, pure_ok_iff, require_ok_iff, exists_const, Prod.mk.injEq] at h
  obtain ⟨-, closed, -, payload, -, decision, hdecision, rfl, -⟩ := h
  exact ⟨_, decision, mapError_ok_iff.mp hdecision, rfl, rfl⟩

lemma runSession_ok {sim : Simulation F S E} {signal : Option Session} {reportIndex : ℤ}
    {state next : StrategyState F S} {record : SessionRecord F E}
    (h : runSession sim signal reportIndex state session = .ok (next, record)) :
    ∃ opened traded,
      (∀ target ∈ state.pendingTarget,
        checkTarget sim.data state.account.positions target = .ok ())
      ∧ openSession sim.rounding sim.data session state.account = .ok opened
      ∧ executePending sim.rounding sim.floats sim.data sim.costs session signal reportIndex
          state.pendingTarget opened = .ok traded
      ∧ closeSession sim session reportIndex opened traded state = .ok (next, record) := by
  unfold runSession at h
  cases hpending : state.pendingTarget with
  | none =>
    simp only [hpending, bind_ok_iff] at h
    obtain ⟨opened, hopen, traded, htraded, hclose⟩ := h
    exact ⟨opened, traded, by simp, hopen, htraded, hclose⟩
  | some target =>
    simp only [hpending, bind_ok_iff] at h
    obtain ⟨_, hcheck, opened, hopen, traded, htraded, hclose⟩ := h
    refine ⟨opened, traded, ?_, hopen, htraded, hclose⟩
    intro target' htarget'
    cases htarget'
    exact hcheck

/-! ### Sell and buy steps -/

/-- A sell step keeps the account or books one order for at most the held shares. -/
theorem sellStep_account {terms : TargetTerms} {marks : Marks} {trading next : Trading E}
    {id : InstrumentId} (h : sellStep R terms marks trading id = .ok next) :
    next.account = trading.account
      ∨ ∃ position intent outcome, trading.account.positions.lookup id = some position
        ∧ sellIntent R terms marks id position = .ok (some intent)
        ∧ 0 < intent.legalQuantity
        ∧ executeOrder R terms.data terms.costs trading.account (terms.sellOrder id intent)
            = .ok outcome
        ∧ next.account = trading.account.settle R outcome := by
  unfold sellStep at h
  simp only [bind_ok_iff, found_ok_iff] at h
  obtain ⟨position, hposition, intent?, hintent, h⟩ := h
  split at h
  · rw [pure_ok_iff] at h
    exact .inl (h ▸ rfl)
  · next intent =>
    split at h
    · rw [pure_ok_iff] at h
      exact .inl (h ▸ rfl)
    · next hne =>
      unfold trade at h
      simp only [bind_ok_iff, pure_ok_iff] at h
      obtain ⟨outcome, houtcome, rfl⟩ := h
      exact .inr ⟨position, intent, outcome, hposition, hintent, Nat.pos_of_ne_zero hne, houtcome,
        rfl⟩

/-- A buy step keeps the account or books one sized order. -/
theorem buyStep_account {terms : TargetTerms} {buying next : Buying E} {id : InstrumentId}
    (h : buyStep R terms buying id = .ok next) :
    next.trading.account = buying.trading.account
      ∨ ∃ deficit unrounded legal quantity outcome,
        buyIntent R terms buying.trading.account.netCash (terms.deficit buying.budget id) id
            = .ok (.sized deficit unrounded legal quantity)
        ∧ 0 < quantity
        ∧ executeOrder R terms.data terms.costs buying.trading.account
            (terms.buyOrder id deficit unrounded quantity) = .ok outcome
        ∧ next.trading.account = buying.trading.account.settle R outcome := by
  unfold buyStep at h
  simp only [bind_ok_iff] at h
  obtain ⟨intent, hintent, h⟩ := h
  split at h
  · rw [pure_ok_iff] at h
    exact .inl (h ▸ rfl)
  · rw [pure_ok_iff] at h
    exact .inl (h ▸ rfl)
  · rw [pure_ok_iff] at h
    exact .inl (h ▸ rfl)
  · next deficit unrounded legal quantity =>
    unfold buySized at h
    dsimp only at h
    split at h
    · rw [pure_ok_iff] at h
      exact .inl (h ▸ rfl)
    · next hne =>
      simp only [bind_ok_iff, pure_ok_iff] at h
      obtain ⟨outcome, houtcome, rfl⟩ := h
      exact .inr ⟨deficit, unrounded, legal, quantity, outcome, hintent, Nat.pos_of_ne_zero hne,
        houtcome, rfl⟩

/-! ### Moves -/

lemma exec_sells {sim : Simulation F S E} (state : StrategyState F S) (frame : SessionFrame)
    {ids : List InstrumentId} {trading next : Trading E}
    (h : ids.foldlM (sellStep sim.rounding frame.terms frame.opened.marks) trading = .ok next) :
    ∃ labels, Exec (Move sim) (.selling state frame ids trading) labels
      (.selling state frame [] next) := by
  induction ids generalizing trading with
  | nil =>
    rw [List.foldlM_nil, pure_ok_iff] at h
    exact ⟨[], h ▸ .nil⟩
  | cons id ids ih =>
    rw [List.foldlM_cons, bind_ok_iff] at h
    obtain ⟨middle, hstep, hrest⟩ := h
    obtain ⟨labels, hlabels⟩ := ih hrest
    exact ⟨_, (Exec.single (Move.sell hstep)).trans hlabels⟩

lemma exec_buys {sim : Simulation F S E} (state : StrategyState F S) (frame : SessionFrame)
    (events : List ValuationEvent) {ids : List InstrumentId} {buying next : Buying E}
    (h : ids.foldlM (buyStep sim.rounding frame.terms) buying = .ok next) :
    ∃ labels, Exec (Move sim) (.buying state frame events ids buying) labels
      (.buying state frame events [] next) := by
  induction ids generalizing buying with
  | nil =>
    rw [List.foldlM_nil, pure_ok_iff] at h
    exact ⟨[], h ▸ .nil⟩
  | cons id ids ih =>
    rw [List.foldlM_cons, bind_ok_iff] at h
    obtain ⟨middle, hstep, hrest⟩ := h
    obtain ⟨labels, hlabels⟩ := ih hrest
    exact ⟨_, (Exec.single (Move.buy hstep)).trans hlabels⟩

/-- A completed pass of the session loop is an execution of moves. -/
theorem runSession_exec {sim : Simulation F S E} {signal : Option Session} {reportIndex : ℤ}
    {state next : StrategyState F S} {record : SessionRecord F E}
    (h : runSession sim signal reportIndex state session = .ok (next, record)) :
    ∃ labels, Exec (Move sim) (.between state) labels (.between next) := by
  obtain ⟨opened, traded, hcheck, hopen, htraded, hclose⟩ := runSession_ok h
  unfold executePending at htraded
  split at htraded
  · next hpending =>
    cases htraded
    exact ⟨_, .snoc (.single (Move.openIdle hpending hopen)) (Move.close hclose)⟩
  · next target hpending =>
    simp only [bind_ok_iff, require_ok_iff, exists_const] at htraded
    obtain ⟨hreport, -, htarget⟩ := htraded
    unfold executeTarget at htarget
    simp only [bind_ok_iff, Prod.exists] at htarget
    obtain ⟨sizing, hsizing, sold, hsold, start, events, hremark, bought, hbought, hsettle⟩ :=
      htarget
    have hbegin : Move sim (.between state) (.openTarget session) _ :=
      Move.openTarget hpending (hcheck target hpending) hopen hreport hsizing
    let frame : SessionFrame :=
      ⟨reportIndex, opened, ⟨sim.data, sim.costs, session, target, sizing⟩⟩
    obtain ⟨sells, hsells⟩ := exec_sells state frame hsold
    have hturn : Move sim (.selling state frame [] sold) .turnToBuys _ := Move.turnToBuys hremark
    obtain ⟨buys, hbuys⟩ := exec_buys state frame events hbought
    have htrades := ((Exec.single hbegin).trans hsells).trans ((Exec.single hturn).trans hbuys)
    exact ⟨_, .snoc (.snoc htrades (Move.settle hsettle)) (Move.close hclose)⟩

theorem runSessions_exec {sim : Simulation F S E} {calendar : List Session} {originIndex : ℤ}
    {sessions : List Session} {state last : StrategyState F S}
    {records : List (SessionRecord F E)}
    (h : runSessions sim calendar originIndex sessions state = .ok (last, records)) :
    ∃ labels, Exec (Move sim) (.between state) labels (.between last) := by
  induction sessions generalizing state records with
  | nil =>
    unfold runSessions at h
    rw [pure_ok_iff] at h
    cases h
    exact ⟨[], .nil⟩
  | cons session sessions ih =>
    unfold runSessions at h
    simp only [bind_ok_iff, pure_ok_iff, Prod.exists, Prod.mk.injEq] at h
    obtain ⟨next, record, hrun, last', later, hlater, rfl, -⟩ := h
    obtain ⟨first, hfirst⟩ := runSession_exec hrun
    obtain ⟨rest, hrest⟩ := ih hlater
    exact ⟨_, hfirst.trans hrest⟩

/-! ### States between sessions -/

/-- The last daily row records the cash and the cost of the account. -/
def StrategyState.Booked (state : StrategyState F S) : Prop :=
  ∀ row ∈ state.lastDaily, row.grossCash = state.account.grossCash
    ∧ row.netCash = state.account.netCash
    ∧ row.cumulativeTransactionCost = state.account.cumulativeCost

lemma initialState_booked (sim : Simulation F S E) : (initialState sim).Booked := by
  intro row hrow
  cases hrow

lemma closeSession_booked {sim : Simulation F S E} {reportIndex : ℤ} {opened : OpenedSession}
    {traded : TradedSession F E} {state next : StrategyState F S} {record : SessionRecord F E}
    (h : closeSession sim session reportIndex opened traded state = .ok (next, record)) :
    next.Booked := by
  obtain ⟨-, haccount, hlast, hdaily⟩ := closeSession_ok h
  intro row hrow
  rw [hlast] at hrow
  cases hrow
  rw [hdaily, haccount]
  exact ⟨rfl, rfl, rfl⟩

lemma restoreState_booked {rows : List PositionRow} {last : DailyObservation F}
    {pending : Option PendingTarget} {decision : Option S} :
    (restoreState rows last pending decision).Booked := by
  intro row hrow
  cases hrow
  exact ⟨rfl, rfl, rfl⟩

/-! ### Restored positions -/

lemma restorePosition_positionRow {id : InstrumentId} {position : Position} {row : PositionRow}
    (h : positionRow id position = .ok row) : restorePosition row = ⟨id, position⟩ := by
  unfold positionRow at h
  simp only [bind_ok_iff, found_ok_iff, pure_ok_iff] at h
  obtain ⟨lastClose, hclose, rfl⟩ := h
  unfold restorePosition
  rw [← hclose]

lemma map_restorePosition {entries : List (Sigma fun _ : InstrumentId => Position)}
    {rows : List PositionRow}
    (h : entries.mapM (fun e => positionRow e.1 e.2) = .ok rows) :
    rows.map restorePosition = entries := by
  induction entries generalizing rows with
  | nil =>
    rw [List.mapM_nil, pure_ok_iff] at h
    subst h
    rfl
  | cons e entries ih =>
    rw [List.mapM_cons] at h
    simp only [bind_ok_iff, pure_ok_iff] at h
    obtain ⟨row, hrow, rest, hrest, rfl⟩ := h
    rw [List.map_cons, restorePosition_positionRow hrow, ih hrest]

/-- Restoring a position payload sorts the positions and changes nothing else. -/
theorem restorePositions_payload {positions : Positions} {rows : List PositionRow}
    (h : positionPayload positions = .ok rows) :
    restorePositions rows = OrderedMap.sorted positions := by
  unfold restorePositions
  rw [map_restorePosition h]
  apply AList.ext
  rw [OrderedMap.entries_ofRows, OrderedMap.entries_sorted]
  exact (OrderedMap.sorted positions).nodupKeys

@[simp] lemma lookup_restorePositions {positions : Positions} {rows : List PositionRow}
    (h : positionPayload positions = .ok rows) (id : InstrumentId) :
    (restorePositions rows).lookup id = positions.lookup id := by
  rw [restorePositions_payload h]
  exact AList.perm_lookup (OrderedMap.sortEntries_perm positions.entries)

/-- A restored account has the cash, the cost and the positions of the account that was
projected. -/
theorem restoreState_account {state : StrategyState F S} {last : DailyObservation F}
    {rows : List PositionRow} (hbooked : state.Booked) (hlast : state.lastDaily = some last)
    (hrows : positionPayload state.account.positions = .ok rows)
    (pending : Option PendingTarget) (decision : Option S) :
    (restoreState rows last pending decision).account
      = { state.account with positions := OrderedMap.sorted state.account.positions } := by
  obtain ⟨hgross, hnet, hcost⟩ := hbooked last hlast
  unfold restoreState
  rw [restorePositions_payload hrows, hgross, hnet, hcost]

/-! ### A small market -/

/-- Main-board stocks with raw prices only; without an Open a stock is suspended. -/
def sampleMarket (opens : Session → InstrumentId → Option ℚ) : MarketData where
  instruments _ := some ⟨.main, none⟩
  executionPrices session id := (opens session id).map fun price => ⟨price, price, fun h => h⟩
  tradingStates session id :=
    if (opens session id).isSome then some .normal else some .fullSessionSuspension
  priceLimits _ _ := some ⟨1000000, 0⟩
  closes := opens

/-- Costs with a minimum commission only. -/
def sampleCosts (commissionMin : ℕ) : Costs where
  commissionRateAllIn := 0
  commissionMin := commissionMin
  stampDutySellRate := 0
  transferFeeRate := 0
  slippageBps := 0
  commissionRateAllIn_nonneg := le_rfl
  commissionMin_nonneg := Nat.cast_nonneg commissionMin
  stampDutySellRate_nonneg := le_rfl
  transferFeeRate_nonneg := le_rfl
  slippageBps_nonneg := le_rfl
  slippageBps_lt := by norm_num

/-- Rebalance everything into the given stocks at equal weights. -/
def equalTarget (decisionSession : Session) (ids : List InstrumentId) (hids : ids.Nodup) :
    PendingTarget where
  decisionSession := decisionSession
  reason := "rebalance"
  allocation := some
    { mode := .rebalance
      instrumentIds := ids
      relativeWeights := fun _ => 1 / ids.length
      exposure := 1
      retainedInstrumentIds := []
      mode_ne := by decide
      instrumentIds_nodup := hids
      relativeWeights_pos := by
        intro id hid
        have hlength : (0 : ℚ) < ids.length := by
          exact_mod_cast List.length_pos_of_mem hid
        exact div_pos one_pos hlength
      relativeWeights_sum := by
        intro hne
        have hlength : (ids.length : ℚ) ≠ 0 := by
          exact_mod_cast (List.length_pos_of_ne_nil hne).ne'
        rw [List.map_const', List.sum_replicate, nsmul_eq_mul]
        exact mul_one_div_cancel hlength
      exposure_nonneg := by norm_num
      exposure_le_one := by norm_num
      retained_nodup := List.nodup_nil
      retained_disjoint := List.disjoint_nil_right _ }
  positionLimits := ∅
  maximumStockExposure := none
  maximumStockExposure_nonneg := by simp
  not_empty := .inl rfl

lemma nodup_none : ([] : List InstrumentId).Nodup := List.nodup_nil

lemma nodup_first : ([1] : List InstrumentId).Nodup := by decide

lemma nodup_second_first : ([2, 1] : List InstrumentId).Nodup := by decide

lemma nodup_third_first : ([3, 1] : List InstrumentId).Nodup := by decide

lemma tenThousand_pos : (0 : ℚ) < 10000 := by norm_num

lemma hundredThousand_pos : (0 : ℚ) < 100000 := by norm_num

/-- A decision program that follows a fixed plan. -/
def plannedDecisions (plan : Session → Option PendingTarget) : DecisionProgram Unit Unit :=
  fun session _ _ _ _ _ => .ok ⟨(), plan session, [], none⟩

/-- The error of an execution that stopped. -/
def stoppedBy {α : Type} (result : Except StrategyError α) : Option StrategyError :=
  match result with
  | .error error => some error
  | .ok _ => none

/-- The value of an execution that did not stop. -/
def okValue {α : Type} (result : Except StrategyError α) (h : stoppedBy result = none) : α :=
  match result, h with
  | .ok value, _ => value

lemma okValue_eq {α : Type} {result : Except StrategyError α} (h : stoppedBy result = none) :
    result = .ok (okValue result h) := by
  cases result with
  | error error => cases h
  | ok value => rfl

/-- The value of an execution, with the execution that gave it. -/
abbrev Ran {α : Type} (result : Except StrategyError α) := { value : α // result = .ok value }

/-- An execution that is run here. -/
def ran {α : Type} (result : Except StrategyError α) (h : stoppedBy result = none) : Ran result :=
  ⟨okValue result h, okValue_eq h⟩

lemma Ran.pair {α β : Type} {result : Except StrategyError (α × β)} (run : Ran result) :
    result = .ok (run.1.1, run.1.2) :=
  run.2

end ThesisTrace.Strategy
