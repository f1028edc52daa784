import ThesisTrace.Strategy.SessionExecution

/-!
# Sessions of a restored account

Restoring a continuation puts the positions in instrument order, while an uninterrupted run
keeps them in the order of purchase. After a boundary the positions of the restored run are
those of the uninterrupted one with the older holdings moved to the front in instrument order.
A session commutes with this reordering as long as nothing reads the order: the valuation
events of positions without an Open, and the 28-digit sum of target values under a stock
exposure cap.
-/

namespace ThesisTrace.Strategy
open Transaction

variable {F S E : Type} {R : Rounding} {B : Binary64 F} {data : MarketData} {costs : Costs}
variable {session : Session} {boundary : Option Session}

/-! ### Reordered accounts -/

/-- The holding was already there at the last Close before the boundary. -/
def heldAt (boundary : Option Session) (_ : InstrumentId) (position : Position) : Bool :=
  match boundary with
  | none => false
  | some last => decide (position.holdingCycleStartedSession ≤ last)

/-- The positions of a run that was restored after `boundary`. -/
def reorder (boundary : Option Session) (positions : Positions) : Positions :=
  OrderedMap.sortedFront (heldAt boundary) positions

def Account.reorder (boundary : Option Session) (account : Account) : Account :=
  { account with positions := Strategy.reorder boundary account.positions }

def Settlement.reorder (boundary : Option Session) (settlement : Settlement) : Settlement :=
  { settlement with positions := Strategy.reorder boundary settlement.positions }

def OrderOutcome.reorder (boundary : Option Session) (outcome : OrderOutcome) : OrderOutcome :=
  { outcome with settlement := outcome.settlement.reorder boundary }

def Trading.reorder (boundary : Option Session) (trading : Trading E) : Trading E :=
  { trading with account := trading.account.reorder boundary }

def Buying.reorder (boundary : Option Session) (buying : Buying E) : Buying E :=
  { buying with trading := buying.trading.reorder boundary }

def OpenedSession.reorder (boundary : Option Session) (opened : OpenedSession) : OpenedSession :=
  { opened with account := opened.account.reorder boundary }

def TradedSession.reorder (boundary : Option Session) (traded : TradedSession F E) :
    TradedSession F E :=
  { traded with trading := traded.trading.reorder boundary }

def StrategyState.reorder (boundary : Option Session) (state : StrategyState F S) :
    StrategyState F S :=
  { state with account := state.account.reorder boundary }

lemma reorder_perm (boundary : Option Session) (positions : Positions) :
    (reorder boundary positions).entries.Perm positions.entries :=
  OrderedMap.sortedFront_perm _ _

@[simp] lemma lookup_reorder (boundary : Option Session) (positions : Positions)
    (id : InstrumentId) : (reorder boundary positions).lookup id = positions.lookup id :=
  OrderedMap.lookup_sortedFront _ _ _

@[simp] lemma sortEntries_reorder (boundary : Option Session) (positions : Positions) :
    OrderedMap.sortEntries (reorder boundary positions).entries
      = OrderedMap.sortEntries positions.entries :=
  OrderedMap.sortEntries_congr (reorder boundary positions).nodupKeys
    (reorder_perm boundary positions)

@[simp] lemma sorted_reorder (boundary : Option Session) (positions : Positions) :
    OrderedMap.sorted (reorder boundary positions) = OrderedMap.sorted positions :=
  OrderedMap.sorted_sortedFront _ _

/-- Changes that keep the start of every holding commute with the reordering. -/
lemma reorder_filterMap {f : InstrumentId → Position → Option Position} {positions : Positions}
    (h : ∀ id position changed, f id position = some changed →
      changed.holdingCycleStartedSession = position.holdingCycleStartedSession) :
    reorder boundary (OrderedMap.filterMap f positions)
      = OrderedMap.filterMap f (reorder boundary positions) := by
  apply OrderedMap.sortedFront_filterMap
  intro e _ changed hchanged
  unfold heldAt
  rw [h e.1 e.2 changed hchanged]

lemma reorder_openMarked (positions : Positions) :
    reorder boundary (openMarked data session positions)
      = openMarked data session (reorder boundary positions) := by
  apply reorder_filterMap
  intro id position changed hchanged
  obtain ⟨price, rfl⟩ := OpenMark.position_some hchanged
  rfl

lemma reorder_agePositions (positions : Positions) :
    reorder boundary (agePositions positions) = agePositions (reorder boundary positions) := by
  apply reorder_filterMap
  intro id position changed hchanged
  cases hchanged
  rfl

lemma reorder_closeMarked (positions : Positions) :
    reorder boundary (closeMarked data session positions)
      = closeMarked data session (reorder boundary positions) := by
  apply reorder_filterMap
  intro id position changed hchanged
  cases hchanged
  unfold CloseMark.position
  split <;> rfl

/-! ### Marks -/

lemma marksOf_reorder (positions : Positions) :
    marksOf (reorder boundary positions) = marksOf positions := by
  funext id
  unfold marksOf
  rw [lookup_reorder]

lemma closeMarksOf_reorder (positions : Positions) :
    closeMarksOf (reorder boundary positions) = closeMarksOf positions := by
  funext id
  unfold closeMarksOf
  rw [lookup_reorder]

lemma sumPositionValues_reorder (positions : Positions) (marks : Marks) :
    sumPositionValues R (reorder boundary positions) marks
      = sumPositionValues R positions marks := by
  unfold sumPositionValues
  rw [sortEntries_reorder]

@[simp] lemma navOf_reorder (cash : ℚ) (positions : Positions) (marks : Marks) :
    navOf R cash (reorder boundary positions) marks = navOf R cash positions marks := by
  unfold navOf
  rw [sumPositionValues_reorder]

/-- The instrument has no executable Open. -/
def unpriced (data : MarketData) (session : Session) (id : InstrumentId) : Bool :=
  (data.executionPrices session id).isNone

/-- The holdings without an Open, in the order in which they are marked. -/
def unpricedEntries (data : MarketData) (session : Session) (positions : Positions) :
    List (Sigma fun _ : InstrumentId => Position) :=
  positions.entries.filter fun e => unpriced data session e.1

/-- The holdings without an Open stand in the order of purchase also after the reordering. -/
def CarriedInOrder (data : MarketData) (session : Session) (boundary : Option Session)
    (positions : Positions) : Prop :=
  unpricedEntries data session (reorder boundary positions)
    = unpricedEntries data session positions

lemma openEvents_eq (positions : Positions) :
    openEvents R data session positions
      = (unpricedEntries data session positions).filterMap fun e =>
          (openMark data session e.1).event R session e.1 e.2 := by
  unfold openEvents unpricedEntries
  rw [List.filterMap_filter]
  apply List.filterMap_congr
  intro e _
  unfold unpriced openMark
  cases data.executionPrices session e.1 with
  | none => rfl
  | some price => rfl

lemma openEvents_reorder {positions : Positions}
    (h : CarriedInOrder data session boundary positions) :
    openEvents R data session (reorder boundary positions)
      = openEvents R data session positions := by
  rw [openEvents_eq, openEvents_eq, h]

lemma unpricedEntries_openMarked (positions : Positions) :
    unpricedEntries data session (openMarked data session positions)
      = OrderedMap.filterMapEntries
          (fun id position => (openMark data session id).position position)
          (unpricedEntries data session positions) := by
  unfold unpricedEntries openMarked
  rw [OrderedMap.entries_filterMap]
  exact OrderedMap.filter_key_filterMapEntries _ (unpriced data session) _

lemma CarriedInOrder.openMarked {positions : Positions}
    (h : CarriedInOrder data session boundary positions) :
    CarriedInOrder data session boundary (openMarked data session positions) := by
  unfold CarriedInOrder
  rw [reorder_openMarked, unpricedEntries_openMarked, unpricedEntries_openMarked, h]

lemma findSome?_reorder_none {γ : Type} (boundary : Option Session) (positions : Positions)
    (f : (Sigma fun _ : InstrumentId => Position) → Option γ) :
    (reorder boundary positions).entries.findSome? f = none
      ↔ positions.entries.findSome? f = none := by
  rw [List.findSome?_eq_none_iff, List.findSome?_eq_none_iff]
  constructor
  · intro h e he
    exact h e ((reorder_perm boundary positions).mem_iff.mpr he)
  · intro h e he
    exact h e ((reorder_perm boundary positions).mem_iff.mp he)

lemma markPositions_reorder {positions : Positions}
    (h : CarriedInOrder data session boundary positions) :
    Mirrors (fun marked => (reorder boundary marked.1, marked.2))
      (markPositions R data session positions)
      (markPositions R data session (reorder boundary positions)) := by
  have hnone := findSome?_reorder_none boundary positions
    fun e => (openMark data session e.1).error?
  unfold markPositions
  rw [← reorder_openMarked, openEvents_reorder h]
  cases hfirst : positions.entries.findSome? fun e => (openMark data session e.1).error? with
  | none =>
    rw [hnone.mpr hfirst]
    exact .commit (openMarked data session positions, openEvents R data session positions)
  | some error =>
    cases hother : (reorder boundary positions).entries.findSome?
        fun e => (openMark data session e.1).error? with
    | none =>
      rw [hnone.mp hother] at hfirst
      cases hfirst
    | some other => exact .rollback error other

lemma markClosePositions_reorder (positions : Positions) :
    Mirrors (reorder boundary) (markClosePositions data session positions)
      (markClosePositions data session (reorder boundary positions)) := by
  have hnone := findSome?_reorder_none boundary positions
    fun e => (closeMark data session e.1 e.2).error?
  unfold markClosePositions
  rw [← reorder_closeMarked]
  cases hfirst : positions.entries.findSome? fun e => (closeMark data session e.1 e.2).error? with
  | none =>
    rw [hnone.mpr hfirst]
    exact .commit (closeMarked data session positions)
  | some error =>
    cases hother : (reorder boundary positions).entries.findSome?
        fun e => (closeMark data session e.1 e.2).error? with
    | none =>
      rw [hnone.mp hother] at hfirst
      cases hfirst
    | some other => exact .rollback error other

lemma openSession_reorder {account : Account}
    (h : CarriedInOrder data session boundary account.positions) :
    Mirrors (OpenedSession.reorder boundary) (openSession R data session account)
      (openSession R data session (account.reorder boundary)) := by
  unfold openSession
  apply (markPositions_reorder h).bind
  rintro ⟨marked, events⟩ -
  simp only [marksOf_reorder, navOf_reorder]
  exact .commit (OpenedSession.mk { account with positions := marked } (marksOf marked) events
    (navOf R account.grossCash marked (marksOf marked))
    (navOf R account.netCash marked (marksOf marked)))

/-! ### Orders -/

/-- Every holding that an order of the session may start is younger than the boundary. -/
def After (boundary : Option Session) (session : Session) : Prop :=
  ∀ last ∈ boundary, last < session

lemma reorder_set {positions : Positions} {id : InstrumentId} {position : Position}
    (hknown : ∀ held, positions.lookup id = some held →
      position.holdingCycleStartedSession = held.holdingCycleStartedSession)
    (hnew : positions.lookup id = none → After boundary position.holdingCycleStartedSession) :
    reorder boundary (OrderedMap.set positions id position)
      = OrderedMap.set (reorder boundary positions) id position := by
  apply OrderedMap.sortedFront_set
  · intro held hheld
    unfold heldAt
    rw [hknown held hheld]
  · intro hmem
    have hafter := hnew (by rwa [AList.lookup_eq_none])
    unfold heldAt
    cases boundary with
    | none => rfl
    | some last =>
      have hlt := hafter last rfl
      exact decide_eq_false (not_le.mpr hlt)

lemma boughtPosition_start {quantity : ℕ} {rawNotional totalCost addedUnits adjustedOpen : ℚ}
    (held : Option Position) :
    (boughtPosition R session quantity rawNotional totalCost addedUnits adjustedOpen
        held).holdingCycleStartedSession
      = (held.map Position.holdingCycleStartedSession).getD session := by
  cases held <;> rfl

lemma reducedPosition_start {position rest : Position} {quantity : ℕ} {removed adjustedOpen : ℚ}
    (h : reducedPosition R position quantity removed adjustedOpen = .ok rest) :
    rest.holdingCycleStartedSession = position.holdingCycleStartedSession := by
  unfold reducedPosition at h
  simp only [bind_ok_iff, pure_ok_iff] at h
  obtain ⟨kept, -, rfl⟩ := h
  rfl

lemma settleBuy_reorder {account : Account} {order : Order} {price : ExecutionPrice}
    {totalQuantity : ℕ} {executionPrice totalCost : ℚ}
    (hafter : After boundary order.context.session) :
    Mirrors (Settlement.reorder boundary)
      (settleBuy R account order price totalQuantity executionPrice totalCost)
      (settleBuy R (account.reorder boundary) order price totalQuantity executionPrice
        totalCost) := by
  unfold settleBuy
  apply Mirrors.step
  intro unitPrice _
  apply Mirrors.step
  intro addedUnits _
  simp only [Account.reorder, lookup_reorder]
  rw [← reorder_set]
  · exact .commit (Settlement.mk _ _ _)
  · intro held hheld
    rw [boughtPosition_start, hheld]
    rfl
  · intro hnone
    rw [boughtPosition_start, hnone]
    exact hafter

lemma settleSell_reorder {account : Account} {order : Order} {price : ExecutionPrice}
    {totalQuantity : ℕ} {executionFactor totalCost : ℚ} :
    Mirrors (Settlement.reorder boundary)
      (settleSell R account order price totalQuantity executionFactor totalCost)
      (settleSell R (account.reorder boundary) order price totalQuantity executionFactor
        totalCost) := by
  unfold settleSell
  simp only [Account.reorder, lookup_reorder]
  apply Mirrors.step
  intro position hposition
  rw [found_ok_iff] at hposition
  apply Mirrors.step
  intro removed _
  have hleft : Mirrors (reorder boundary)
      (if position.executionShares = totalQuantity then
        .ok (account.positions.erase order.instrument)
      else (reducedPosition R position totalQuantity removed price.adjustedOpen).map
        (OrderedMap.set account.positions order.instrument))
      (if position.executionShares = totalQuantity then
        .ok ((reorder boundary account.positions).erase order.instrument)
      else (reducedPosition R position totalQuantity removed price.adjustedOpen).map
        (OrderedMap.set (reorder boundary account.positions) order.instrument)) := by
    split
    · unfold reorder
      rw [← OrderedMap.sortedFront_erase]
      exact .commit (account.positions.erase order.instrument)
    · cases hrest : reducedPosition R position totalQuantity removed price.adjustedOpen with
      | error e => exact .rollback e e
      | ok rest =>
        have hset : reorder boundary (OrderedMap.set account.positions order.instrument rest)
            = OrderedMap.set (reorder boundary account.positions) order.instrument rest := by
          apply reorder_set
          · intro held hheld
            rw [hposition] at hheld
            cases hheld
            exact reducedPosition_start hrest
          · intro hnone
            rw [hposition] at hnone
            cases hnone
        simp only [Except.map]
        rw [← hset]
        exact .commit (OrderedMap.set account.positions order.instrument rest)
  apply hleft.bind
  intro positions _
  exact .commit (Settlement.mk positions _ _)

lemma unitsHeld_reorder (positions : Positions) (id : InstrumentId) :
    unitsHeld (reorder boundary positions) id = unitsHeld positions id := by
  unfold unitsHeld
  rw [lookup_reorder]

lemma fillOrder_reorder {costs : Costs} {account : Account} {order : Order}
    {price : ExecutionPrice} (hafter : After boundary order.context.session) :
    Mirrors (OrderOutcome.reorder boundary) (fillOrder R data costs account order price)
      (fillOrder R data costs (account.reorder boundary) order price) := by
  unfold fillOrder
  have hlookup : (account.reorder boundary).positions.lookup order.instrument
      = account.positions.lookup order.instrument := lookup_reorder _ _ _
  simp only [hlookup]
  apply Mirrors.step
  intro profile _
  apply Mirrors.step
  intro quantities _
  refine Mirrors.bind (g := Settlement.reorder boundary) ?_ fun settlement _ => ?_
  · cases order.side with
    | buy => exact settleBuy_reorder hafter
    | sell => exact settleSell_reorder
  · simp only [Settlement.reorder, Account.reorder, unitsHeld_reorder]
    exact .commit (OrderOutcome.mk settlement _ _ _ _ _)

lemma executeOrder_reorder {costs : Costs} {account : Account} (order : Order)
    (hafter : After boundary order.context.session) :
    Mirrors (OrderOutcome.reorder boundary) (executeOrder R data costs account order)
      (executeOrder R data costs (account.reorder boundary) order) := by
  unfold executeOrder
  apply Mirrors.step
  intro _ _
  cases orderRejection data order with
  | some reason => exact .commit (rejectOrder account order reason)
  | none =>
    apply Mirrors.step
    intro price _
    exact fillOrder_reorder hafter

/-! ### Sells and buys -/

lemma sellStep_reorder {terms : TargetTerms} {marks : Marks}
    (hafter : After boundary terms.session) (trading : Trading E) (id : InstrumentId) :
    Mirrors (Trading.reorder boundary) (sellStep R terms marks trading id)
      (sellStep R terms marks (trading.reorder boundary) id) := by
  unfold sellStep
  have hlookup : (trading.reorder boundary).account.positions.lookup id
      = trading.account.positions.lookup id := lookup_reorder _ _ _
  rw [hlookup]
  apply Mirrors.step
  intro position _
  apply Mirrors.step
  intro intent? _
  cases intent? with
  | none => exact .commit trading
  | some intent =>
    dsimp only
    split
    · exact .commit (Trading.mk trading.account _)
    · unfold trade
      apply (executeOrder_reorder (terms.sellOrder id intent) hafter).bind
      intro outcome _
      exact .commit (Trading.mk (trading.account.settle R outcome)
        (trading.journal.record outcome))

lemma buySized_reorder {terms : TargetTerms} (hafter : After boundary terms.session)
    (buying : Buying E) (id : InstrumentId) (deficit : ℚ) (unrounded : ℤ)
    (legalQuantity quantity : ℕ) :
    Mirrors (Buying.reorder boundary)
      (buySized R terms buying id deficit unrounded legalQuantity quantity)
      (buySized R terms (buying.reorder boundary) id deficit unrounded legalQuantity
        quantity) := by
  unfold buySized
  dsimp only
  split
  · exact .commit (Buying.mk ⟨buying.trading.account, _⟩ buying.budget)
  · apply (executeOrder_reorder (terms.buyOrder id deficit unrounded quantity)
      hafter).bind
    intro outcome _
    exact .commit (Buying.mk ⟨buying.trading.account.settle R outcome, _⟩ _)

lemma buyStep_reorder {terms : TargetTerms} (hafter : After boundary terms.session)
    (buying : Buying E) (id : InstrumentId) :
    Mirrors (Buying.reorder boundary) (buyStep R terms buying id)
      (buyStep R terms (buying.reorder boundary) id) := by
  unfold buyStep
  apply Mirrors.step
  intro intent _
  cases intent with
  | skipped => exact .commit buying
  | unavailable deficit reason => exact .commit (Buying.mk ⟨buying.trading.account, _⟩ _)
  | ineligible => exact .commit (Buying.mk ⟨buying.trading.account, _⟩ _)
  | sized deficit unrounded legal quantity => exact buySized_reorder hafter _ _ _ _ _ _

lemma runSells_reorder (terms : TargetTerms) (hafter : After boundary terms.session)
    (opened : OpenedSession) (journal : Journal E) :
    Mirrors (Trading.reorder boundary) (runSells R terms opened journal)
      (runSells R terms (opened.reorder boundary) journal) := by
  unfold runSells
  have hkeys : OrderedMap.sorted (opened.reorder boundary).account.positions
      = OrderedMap.sorted opened.account.positions := sorted_reorder _ _
  rw [hkeys]
  exact Mirrors.foldlM (sellStep_reorder hafter) _ ⟨opened.account, journal⟩

lemma runBuys_reorder (terms : TargetTerms) (hafter : After boundary terms.session)
    (buying : Buying E) :
    Mirrors (Buying.reorder boundary) (runBuys R terms buying)
      (runBuys R terms (buying.reorder boundary)) :=
  Mirrors.foldlM (buyStep_reorder hafter) _ buying

/-! ### Holdings without an Open during the orders -/

/-- An order is filled at an Open, so it does not touch the holdings without one. -/
lemma unpricedEntries_executeOrder {costs : Costs} {account : Account} {order : Order}
    {outcome : OrderOutcome}
    (h : executeOrder R data costs account order = .ok outcome) :
    unpricedEntries data order.context.session outcome.settlement.positions
      = unpricedEntries data order.context.session account.positions := by
  rcases executeOrder_cases h with ⟨reason, rfl⟩ | ⟨price, hprice, hfill⟩
  · rfl
  · have hpriced : unpriced data order.context.session order.instrument = false := by
      unfold unpriced
      rw [hprice]
      rfl
    unfold unpricedEntries
    cases hside : order.side with
    | buy =>
      obtain ⟨_, _, _, _, -, -, -, -, -, hsettle⟩ := fillOrder_buy hside hfill
      rw [hsettle]
      exact OrderedMap.filter_set _ hpriced
    | sell =>
      obtain ⟨_, _, position, removed, -, -, -, -, -, -, -, hleft⟩ := fillOrder_sell hside hfill
      rcases hleft with ⟨-, hpositions⟩ | ⟨-, rest, -, hpositions⟩
      · rw [hpositions]
        exact OrderedMap.filter_erase hpriced
      · rw [hpositions]
        exact OrderedMap.filter_set _ hpriced

lemma unpricedEntries_sellStep {terms : TargetTerms} {marks : Marks} {trading next : Trading E}
    {id : InstrumentId} (h : sellStep R terms marks trading id = .ok next) :
    unpricedEntries terms.data terms.session next.account.positions
      = unpricedEntries terms.data terms.session trading.account.positions := by
  rcases sellStep_account h with hsame | ⟨_, intent, outcome, -, -, -, hexecute, hnext⟩
  · rw [hsame]
  · rw [hnext]
    exact unpricedEntries_executeOrder hexecute

lemma unpricedEntries_buyStep {terms : TargetTerms} {buying next : Buying E}
    {id : InstrumentId} (h : buyStep R terms buying id = .ok next) :
    unpricedEntries terms.data terms.session next.trading.account.positions
      = unpricedEntries terms.data terms.session buying.trading.account.positions := by
  rcases buyStep_account h with hsame | ⟨_, _, _, _, outcome, -, -, hexecute, hnext⟩
  · rw [hsame]
  · rw [hnext]
    exact unpricedEntries_executeOrder hexecute

lemma unpricedEntries_runSells {terms : TargetTerms} {opened : OpenedSession}
    {journal : Journal E} {sold : Trading E} (h : runSells R terms opened journal = .ok sold) :
    unpricedEntries terms.data terms.session sold.account.positions
      = unpricedEntries terms.data terms.session opened.account.positions :=
  foldlM_preserves
    (I := fun trading : Trading E =>
      unpricedEntries terms.data terms.session trading.account.positions
        = unpricedEntries terms.data terms.session opened.account.positions)
    (fun _ _ _ hs hstep => (unpricedEntries_sellStep hstep).trans hs) rfl h

lemma unpricedEntries_runBuys {terms : TargetTerms} {start bought : Buying E}
    (h : runBuys R terms start = .ok bought) :
    unpricedEntries terms.data terms.session bought.trading.account.positions
      = unpricedEntries terms.data terms.session start.trading.account.positions :=
  foldlM_preserves
    (I := fun buying : Buying E =>
      unpricedEntries terms.data terms.session buying.trading.account.positions
        = unpricedEntries terms.data terms.session start.trading.account.positions)
    (fun _ _ _ hs hstep => (unpricedEntries_buyStep hstep).trans hs) rfl h

lemma CarriedInOrder.runSells {terms : TargetTerms} {opened : OpenedSession}
    {journal : Journal E} {sold : Trading E} (hafter : After boundary terms.session)
    (hcarried : CarriedInOrder terms.data terms.session boundary opened.account.positions)
    (h : runSells R terms opened journal = .ok sold) :
    CarriedInOrder terms.data terms.session boundary sold.account.positions := by
  have hother := (runSells_reorder terms hafter opened journal).ok h
  exact (unpricedEntries_runSells hother).trans
    (hcarried.trans (unpricedEntries_runSells h).symm)

lemma CarriedInOrder.runBuys {terms : TargetTerms} {start bought : Buying E}
    (hafter : After boundary terms.session)
    (hcarried : CarriedInOrder terms.data terms.session boundary
      start.trading.account.positions)
    (h : runBuys R terms start = .ok bought) :
    CarriedInOrder terms.data terms.session boundary bought.trading.account.positions := by
  have hother := (runBuys_reorder terms hafter start).ok h
  exact (unpricedEntries_runBuys hother).trans
    (hcarried.trans (unpricedEntries_runBuys h).symm)

/-! ### Target sizing -/

/-- Target values up to the order in which they were assigned. -/
def valuesOf (values : OrderedMap InstrumentId ℚ) : InstrumentId → Option ℚ :=
  fun id => values.lookup id

lemma valuesOf_set {values values' : OrderedMap InstrumentId ℚ}
    (h : valuesOf values = valuesOf values') (id : InstrumentId) (x : ℚ) :
    valuesOf (OrderedMap.set values id x) = valuesOf (OrderedMap.set values' id x) := by
  funext id'
  have hlookup : values.lookup id' = values'.lookup id' := congrFun h id'
  simp only [valuesOf, OrderedMap.lookup_set, hlookup]

lemma valuesOf_updateAll {values values' : OrderedMap InstrumentId ℚ}
    (h : valuesOf values = valuesOf values') (rows : List (Sigma fun _ : InstrumentId => ℚ)) :
    valuesOf (updateAll values rows) = valuesOf (updateAll values' rows) := by
  unfold updateAll
  induction rows generalizing values values' with
  | nil => exact h
  | cons row rows ih => exact ih (valuesOf_set h row.1 row.2)

lemma lookup_raise {entries : List (Sigma fun _ : InstrumentId => Position)}
    (hnodup : entries.NodupKeys) (marks : Marks) (values : OrderedMap InstrumentId ℚ)
    (id : InstrumentId) :
    (entries.foldl (fun values e =>
      OrderedMap.set values e.1 (max ((values.lookup e.1).getD (holdingValue R marks e.1 e.2))
        (holdingValue R marks e.1 e.2))) values).lookup id
      = match entries.dlookup id with
        | some position => some (max ((values.lookup id).getD (holdingValue R marks id position))
            (holdingValue R marks id position))
        | none => values.lookup id := by
  induction entries generalizing values with
  | nil => rfl
  | cons e entries ih =>
    obtain ⟨hnotMem, hrest⟩ := List.nodupKeys_cons.mp hnodup
    rw [List.foldl_cons, ih hrest]
    obtain ⟨key, position⟩ := e
    by_cases hid : id = key
    · subst hid
      rw [List.dlookup_eq_none.mpr hnotMem, List.dlookup_cons_eq, OrderedMap.lookup_set,
        if_pos rfl]
    · have hlater : List.dlookup id
          ((⟨key, position⟩ : Sigma fun _ : InstrumentId => Position) :: entries)
          = entries.dlookup id := List.dlookup_cons_ne entries _ hid
      rw [hlater, OrderedMap.lookup_set, if_neg hid]

lemma valuesOf_raiseToActual_reorder {values values' : OrderedMap InstrumentId ℚ}
    (h : valuesOf values = valuesOf values') (positions : Positions) (marks : Marks) :
    valuesOf (raiseToActual R (reorder boundary positions) marks values)
      = valuesOf (raiseToActual R positions marks values') := by
  funext id
  have hvalue : values.lookup id = values'.lookup id := congrFun h id
  have hposition : (reorder boundary positions).entries.dlookup id
      = positions.entries.dlookup id := lookup_reorder boundary positions id
  unfold valuesOf raiseToActual
  rw [lookup_raise (reorder boundary positions).nodupKeys, lookup_raise positions.nodupKeys,
    hposition, hvalue]

lemma retainedValues_reorder (target : PendingTarget) (positions : Positions) (marks : Marks) :
    retainedValues R target (reorder boundary positions) marks
      = retainedValues R target positions marks := by
  unfold retainedValues
  simp only [lookup_reorder]

lemma valuesOf_reducedValues_reorder (target : PendingTarget) (positions : Positions)
    (marks : Marks) (ratio : ℚ) :
    valuesOf (reducedValues R target (reorder boundary positions) marks ratio)
      = valuesOf (reducedValues R target positions marks ratio) := by
  funext id
  unfold valuesOf reducedValues
  rw [OrderedMap.lookup_filterMap, OrderedMap.lookup_filterMap, lookup_reorder]

lemma valuesOf_uncappedValues_reorder (target : PendingTarget) (positions : Positions)
    (marks : Marks) (capital : ℚ) :
    valuesOf (uncappedValues R target (reorder boundary positions) marks capital)
      = valuesOf (uncappedValues R target positions marks capital) := by
  unfold uncappedValues
  simp only [retainedValues_reorder, sumPositionValues_reorder]
  have hupdated : ∀ ratio available, valuesOf (updateAll
      (if target.mode = .reduce then
        reducedValues R target (reorder boundary positions) marks ratio
      else OrderedMap.ofRows (candidateValues R target available))
      (retainedValues R target positions marks))
      = valuesOf (updateAll
        (if target.mode = .reduce then reducedValues R target positions marks ratio
        else OrderedMap.ofRows (candidateValues R target available))
        (retainedValues R target positions marks)) := by
    intro ratio available
    apply valuesOf_updateAll
    split
    · exact valuesOf_reducedValues_reorder target positions marks ratio
    · rfl
  split
  · exact valuesOf_raiseToActual_reorder (hupdated _ _) positions marks
  · exact hupdated _ _

lemma map_valuesOf_limitValue {positions : Positions} {marks : Marks}
    {values values' : OrderedMap InstrumentId ℚ} (h : valuesOf values = valuesOf values')
    (id : InstrumentId) (maximum : ℕ) :
    (limitValue R positions marks values id maximum).map valuesOf
      = (limitValue R positions marks values' id maximum).map valuesOf := by
  have hlookup : values.lookup id = values'.lookup id := congrFun h id
  unfold limitValue
  cases positions.lookup id with
  | none => exact congrArg Except.ok h
  | some position =>
    dsimp only
    split
    · rfl
    · rw [hlookup]
      exact congrArg Except.ok (valuesOf_set h id _)

lemma map_valuesOf_limitValues {positions : Positions} {marks : Marks} (target : PendingTarget)
    {values values' : OrderedMap InstrumentId ℚ} (h : valuesOf values = valuesOf values') :
    (limitValues R target positions marks values).map valuesOf
      = (limitValues R target positions marks values').map valuesOf :=
  foldlM_map_congr (fun _ _ e hs => map_valuesOf_limitValue hs e.1 e.2) h

lemma limitValues_reorder (target : PendingTarget) (positions : Positions) (marks : Marks)
    (values : OrderedMap InstrumentId ℚ) :
    limitValues R target (reorder boundary positions) marks values
      = limitValues R target positions marks values := by
  unfold limitValues limitValue
  simp only [lookup_reorder]

/-- The stock capital that the targets ask for before the exposure cap. -/
def proposedStock (R : Rounding) (target : PendingTarget) (positions : Positions) (marks : Marks)
    (preNetNav : ℚ) : Except StrategyError ℚ :=
  (limitValues R target positions marks
    (uncappedValues R target positions marks (targetCapital R target preNetNav))).map
      (proposedCapital R)

/-- Under an exposure cap the sum of the target values does not depend on the order in which
they were assigned. -/
def CappedInOrder (R : Rounding) (boundary : Option Session) (target : PendingTarget)
    (positions : Positions) (marks : Marks) (preNetNav : ℚ) : Prop :=
  target.maximumStockExposure.isSome = true →
    proposedStock R target (reorder boundary positions) marks preNetNav
      = proposedStock R target positions marks preNetNav

lemma map_valuesOf_capValues {target : PendingTarget} {preNetNav : ℚ}
    {monetary monetary' values values' : OrderedMap InstrumentId ℚ}
    (hmonetary : valuesOf monetary = valuesOf monetary')
    (hvalues : valuesOf values = valuesOf values')
    (hcap : target.maximumStockExposure.isSome = true →
      proposedCapital R values = proposedCapital R values') :
    (capValues R target preNetNav monetary values).map (fun e => (valuesOf e.1, valuesOf e.2))
      = (capValues R target preNetNav monetary' values').map
          (fun e => (valuesOf e.1, valuesOf e.2)) := by
  have hplain : (Except.ok (valuesOf monetary, valuesOf values) : Except StrategyError _)
      = .ok (valuesOf monetary', valuesOf values') := by rw [hmonetary, hvalues]
  unfold capValues
  cases hexposure : target.maximumStockExposure with
  | none => exact hplain
  | some cap =>
    have hsum := hcap (by rw [hexposure]; rfl)
    dsimp only
    rw [hsum]
    split
    · exact hplain
    · cases R.divide (R.money (R.ambient (preNetNav * cap))) (proposedCapital R values') with
      | error e => rfl
      | ok ratio =>
        have hscaled : ∀ f : InstrumentId → ℚ → Option ℚ,
            valuesOf (OrderedMap.filterMap f values) = valuesOf (OrderedMap.filterMap f values') := by
          intro f
          funext id
          have hlookup : values.lookup id = values'.lookup id := congrFun hvalues id
          unfold valuesOf
          rw [OrderedMap.lookup_filterMap, OrderedMap.lookup_filterMap, hlookup]
        simp only [ok_bind, pure, Except.pure, Except.map, hscaled]

lemma sizeTarget_reorder {target : PendingTarget} {positions : Positions} {marks : Marks}
    {preNetNav : ℚ} (hcapped : CappedInOrder R boundary target positions marks preNetNav) :
    sizeTarget R target (reorder boundary positions) marks preNetNav
      = sizeTarget R target positions marks preNetNav := by
  unfold CappedInOrder proposedStock at hcapped
  have huncapped : valuesOf (uncappedValues R target (reorder boundary positions) marks
      (targetCapital R target preNetNav))
      = valuesOf (uncappedValues R target positions marks (targetCapital R target preNetNav)) :=
    valuesOf_uncappedValues_reorder target positions marks (targetCapital R target preNetNav)
  have hlimited : (limitValues R target positions marks _).map valuesOf
      = (limitValues R target positions marks _).map valuesOf :=
    map_valuesOf_limitValues target huncapped
  simp only [limitValues_reorder] at hcapped
  unfold sizeTarget
  simp only [limitValues_reorder]
  generalize uncappedValues R target (reorder boundary positions) marks
    (targetCapital R target preNetNav) = monetary at *
  generalize uncappedValues R target positions marks
    (targetCapital R target preNetNav) = monetary' at *
  cases hx : limitValues R target positions marks monetary with
  | error e =>
    cases hy : limitValues R target positions marks monetary' with
    | error e' => rw [hx, hy] at hlimited; cases hlimited; rfl
    | ok values' => rw [hx, hy] at hlimited; cases hlimited
  | ok values =>
    cases hy : limitValues R target positions marks monetary' with
    | error e' => rw [hx, hy] at hlimited; cases hlimited
    | ok values' =>
      rw [hx, hy] at hlimited hcapped
      have hvalues : valuesOf values = valuesOf values' := Except.ok.inj hlimited
      have hpair : (capValues R target preNetNav monetary values).map
          (fun e => (valuesOf e.1, valuesOf e.2))
          = (capValues R target preNetNav monetary' values').map
            (fun e => (valuesOf e.1, valuesOf e.2)) :=
        map_valuesOf_capValues huncapped hvalues fun hsome => Except.ok.inj (hcapped hsome)
      simp only [ok_bind]
      cases hcx : capValues R target preNetNav monetary values with
      | error e =>
        cases hcy : capValues R target preNetNav monetary' values' with
        | error e' => rw [hcx, hcy] at hpair; cases hpair; rfl
        | ok pair' => rw [hcx, hcy] at hpair; cases hpair
      | ok pair =>
        cases hcy : capValues R target preNetNav monetary' values' with
        | error e' => rw [hcx, hcy] at hpair; cases hpair
        | ok pair' =>
          rw [hcx, hcy] at hpair
          obtain ⟨hm, hv⟩ := Prod.mk.inj (Except.ok.inj hpair)
          have hmonetary : ∀ id, pair.1.lookup id = pair'.1.lookup id := congrFun hm
          have htarget : ∀ id, pair.2.lookup id = pair'.2.lookup id := congrFun hv
          have hdeficit : buyDeficit R (reorder boundary positions) marks pair.2
              = buyDeficit R positions marks pair'.2 := by
            funext id
            unfold buyDeficit
            rw [lookup_reorder, htarget]
          simp only [ok_bind, hmonetary, htarget, hdeficit]

/-! ### A target -/

lemma checkTarget_reorder (positions : Positions) (target : PendingTarget) :
    checkTarget data (reorder boundary positions) target = checkTarget data positions target := by
  unfold checkTarget
  simp only [lookup_reorder]

lemma remarkForBuys_reorder {terms : TargetTerms} {trading : Trading E}
    (h : CarriedInOrder terms.data terms.session boundary trading.account.positions) :
    Mirrors (fun start : Buying E × List ValuationEvent => (start.1.reorder boundary, start.2))
      (remarkForBuys R terms trading) (remarkForBuys R terms (trading.reorder boundary)) := by
  unfold remarkForBuys
  apply (markPositions_reorder h).bind
  rintro ⟨marked, events⟩ -
  simp only [marksOf_reorder, sumPositionValues_reorder]
  exact .commit (Buying.mk ⟨{ trading.account with positions := marked }, trading.journal⟩ _,
    events)

lemma accountWeights_cash_reorder {B : Binary64 F} (cash nav : ℚ) (positions : Positions)
    (marks : Marks) :
    (accountWeights R B cash nav (reorder boundary positions) marks).cash
      = (accountWeights R B cash nav positions marks).cash := by
  unfold accountWeights
  split <;> rfl

lemma accountWeights_holdings_reorder {B : Binary64 F} (cash nav : ℚ) (positions : Positions)
    (marks : Marks) :
    (accountWeights R B cash nav (reorder boundary positions) marks).holdings.entries.Perm
      (accountWeights R B cash nav positions marks).holdings.entries := by
  unfold accountWeights
  split
  · exact List.Perm.refl _
  · simp only [OrderedMap.entries_filterMap]
    exact OrderedMap.filterMapEntries_perm (reorder_perm boundary positions)

/-- Turnover is a sum over the assets of two accounts, so it does not see their order. -/
lemma weightTurnover_congr {B : Binary64 F} {before before' after after' : AccountWeights F}
    (hbefore : before'.cash = before.cash)
    (hbeforeHoldings : before'.holdings.entries.Perm before.holdings.entries)
    (hafter : after'.cash = after.cash)
    (hafterHoldings : after'.holdings.entries.Perm after.holdings.entries) :
    weightTurnover B before' after' = weightTurnover B before after := by
  have hkeys : before'.holdings.keys.toFinset = before.holdings.keys.toFinset :=
    List.toFinset_eq_of_perm _ _ (hbeforeHoldings.map _)
  have hkeys' : after'.holdings.keys.toFinset = after.holdings.keys.toFinset :=
    List.toFinset_eq_of_perm _ _ (hafterHoldings.map _)
  have hlookup := OrderedMap.perm_iff_lookup.mp hbeforeHoldings
  have hlookup' := OrderedMap.perm_iff_lookup.mp hafterHoldings
  unfold weightTurnover
  simp only [hbefore, hafter, hkeys, hkeys', hlookup, hlookup']

lemma settleTarget_reorder {B : Binary64 F} {opened : OpenedSession}
    {events : List ValuationEvent} {trading : Trading E}
    (h : CarriedInOrder data session boundary trading.account.positions) :
    Mirrors (TradedSession.reorder boundary)
      (settleTarget (F := F) R B data session opened events trading)
      (settleTarget R B data session (opened.reorder boundary) events
        (trading.reorder boundary)) := by
  unfold settleTarget
  apply (markPositions_reorder h).bind
  rintro ⟨marked, post⟩ -
  have hturnover : weightTurnover B
      (accountWeights R B (opened.reorder boundary).account.netCash
        (opened.reorder boundary).preNetNav (opened.reorder boundary).account.positions
        (opened.reorder boundary).marks)
      (accountWeights R B (trading.reorder boundary).account.netCash
        (navOf R (trading.reorder boundary).account.netCash marked (marksOf marked))
        (reorder boundary marked) (marksOf marked))
      = weightTurnover B
        (accountWeights R B opened.account.netCash opened.preNetNav opened.account.positions
          opened.marks)
        (accountWeights R B trading.account.netCash
          (navOf R trading.account.netCash marked (marksOf marked)) marked (marksOf marked)) := by
    apply weightTurnover_congr
    · exact accountWeights_cash_reorder _ _ _ _
    · exact accountWeights_holdings_reorder _ _ _ _
    · exact accountWeights_cash_reorder _ _ _ _
    · exact accountWeights_holdings_reorder _ _ _ _
  simp only [marksOf_reorder, navOf_reorder]
  rw [hturnover]
  exact .commit (TradedSession.mk ⟨{ trading.account with positions := marked },
    trading.journal⟩ (marksOf marked) (opened.events ++ events ++ post) true _)

/-- Nothing in the session of a pending target reads the order of the positions. -/
def TargetInOrder (R : Rounding) (boundary : Option Session) (opened : OpenedSession)
    (target : PendingTarget) : Prop :=
  CappedInOrder R boundary target opened.account.positions opened.marks opened.preNetNav

lemma executeTarget_reorder {B : Binary64 F} {costs : Costs} {target : PendingTarget}
    {opened : OpenedSession} (hafter : After boundary session)
    (hcarried : CarriedInOrder data session boundary opened.account.positions)
    (hcapped : TargetInOrder R boundary opened target) :
    Mirrors (TradedSession.reorder boundary)
      (executeTarget (F := F) (E := E) R B data costs session target opened)
      (executeTarget R B data costs session target (opened.reorder boundary)) := by
  have hsizing : sizeTarget R target (opened.reorder boundary).account.positions
      (opened.reorder boundary).marks (opened.reorder boundary).preNetNav
      = sizeTarget R target opened.account.positions opened.marks opened.preNetNav :=
    sizeTarget_reorder hcapped
  unfold executeTarget
  rw [hsizing]
  apply Mirrors.step
  intro sizing _
  apply (runSells_reorder ⟨data, costs, session, target, sizing⟩ hafter opened _).bind
  intro sold hsold
  have hsoldCarried := CarriedInOrder.runSells hafter hcarried hsold
  apply (remarkForBuys_reorder hsoldCarried).bind
  rintro ⟨start, events⟩ hstart
  have hstartCarried : CarriedInOrder data session boundary start.trading.account.positions := by
    rw [(remarkForBuys_ok hstart).1]
    exact hsoldCarried.openMarked
  apply (runBuys_reorder ⟨data, costs, session, target, sizing⟩ hafter start).bind
  intro bought hbought
  have hboughtCarried : CarriedInOrder data session boundary bought.trading.account.positions :=
    CarriedInOrder.runBuys hafter hstartCarried hbought
  exact settleTarget_reorder hboughtCarried

lemma executePending_reorder {B : Binary64 F} {costs : Costs} {signal : Option Session}
    {reportIndex : ℤ} {pending : Option PendingTarget} {opened : OpenedSession}
    (hafter : After boundary session)
    (hcarried : CarriedInOrder data session boundary opened.account.positions)
    (hcapped : ∀ target ∈ pending, TargetInOrder R boundary opened target) :
    Mirrors (TradedSession.reorder boundary)
      (executePending (F := F) (E := E) R B data costs session signal reportIndex pending opened)
      (executePending R B data costs session signal reportIndex pending
        (opened.reorder boundary)) := by
  cases pending with
  | none => exact .commit (OpenedSession.untraded opened)
  | some target =>
    unfold executePending
    apply Mirrors.step
    intro _ _
    apply Mirrors.step
    intro _ _
    exact executeTarget_reorder hafter hcarried (hcapped target rfl)

/-! ### Close -/

/-- Rounded values that are equal as numbers are the same binary64 number. -/
def Binary64.Canonical (B : Binary64 F) : Prop :=
  ∀ x y, B.toRat (B.ofRat x) = B.toRat (B.ofRat y) → B.ofRat x = B.ofRat y

lemma toRat_maximum_le {B : Binary64 F} {values values' : List F} {m m' : F}
    (hsub : values ⊆ values') (h : B.maximum values = some m) (h' : B.maximum values' = some m') :
    B.toRat m ≤ B.toRat m' :=
  List.le_of_mem_argmax (hsub (List.argmax_mem h)) h'

/-- The largest weight of an account does not depend on the order of its positions. -/
lemma maximum_perm {B : Binary64 F} (hcanonical : B.Canonical) {values values' : List ℚ}
    (h : values.Perm values') : B.maximum (values.map B.ofRat) = B.maximum (values'.map B.ofRat) := by
  have hperm : (values.map B.ofRat).Perm (values'.map B.ofRat) := h.map _
  cases hm : B.maximum (values.map B.ofRat) with
  | none =>
    have hnil : values.map B.ofRat = [] := List.argmax_eq_none.mp hm
    rw [hnil] at hperm
    exact (List.argmax_eq_none.mpr (List.nil_perm.mp hperm)).symm
  | some m =>
    cases hm' : B.maximum (values'.map B.ofRat) with
    | none =>
      have hnil : values'.map B.ofRat = [] := List.argmax_eq_none.mp hm'
      rw [hnil] at hperm
      rw [List.perm_nil.mp hperm] at hm
      cases hm
    | some m' =>
      have hle := toRat_maximum_le hperm.subset hm hm'
      have hge := toRat_maximum_le hperm.symm.subset hm' hm
      obtain ⟨x, -, rfl⟩ := List.mem_map.mp (List.argmax_mem hm)
      obtain ⟨y, -, rfl⟩ := List.mem_map.mp (List.argmax_mem hm')
      rw [hcanonical x y (le_antisymm hle hge)]

lemma maximumWeight_reorder {B : Binary64 F} (hcanonical : B.Canonical) (positions : Positions)
    (marks : Marks) (netNav : ℚ) :
    maximumWeight R B (reorder boundary positions) marks netNav
      = maximumWeight R B positions marks netNav := by
  have hperm := (reorder_perm boundary positions).map
    fun e => R.ambient (holdingValue R marks e.1 e.2 / netNav)
  have hmax := maximum_perm hcanonical hperm
  rw [List.map_map, List.map_map] at hmax
  unfold maximumWeight
  split
  · rfl
  · exact congrArg (fun m : Option F => m.getD (B.ofRat 0)) hmax

lemma holdingRows_reorder {B : Binary64 F} (positions : Positions) (marks : Marks) (netNav : ℚ) :
    holdingRows R B (reorder boundary positions) marks netNav
      = holdingRows R B positions marks netNav := by
  unfold holdingRows
  rw [sortEntries_reorder]

lemma positionPayload_reorder (positions : Positions) :
    positionPayload (reorder boundary positions) = positionPayload positions := by
  unfold positionPayload
  rw [sortEntries_reorder]

lemma dailyObservation_reorder {B : Binary64 F} (hcanonical : B.Canonical)
    (R : Rounding) (session : Session) (boundary : Option Session) (opened : OpenedSession)
    (traded : TradedSession F E) (account : Account)
    (last : Option (DailyObservation F)) (grossNav netNav closeRiskNav : ℚ) :
    dailyObservation R B session (opened.reorder boundary) (traded.reorder boundary)
        (account.reorder boundary) last grossNav netNav closeRiskNav
      = dailyObservation R B session opened traded account last grossNav netNav closeRiskNav := by
  have hlength : (reorder boundary account.positions).entries.length
      = account.positions.entries.length := (reorder_perm boundary account.positions).length_eq
  unfold dailyObservation
  simp only [Account.reorder, OpenedSession.reorder, TradedSession.reorder, hlength,
    maximumWeight_reorder hcanonical]

lemma closeSession_reorder {sim : Simulation F S E} (hcanonical : sim.floats.Canonical)
    {reportIndex : ℤ} {opened : OpenedSession} {traded : TradedSession F E}
    {state : StrategyState F S} :
    Mirrors (fun result : StrategyState F S × SessionRecord F E =>
        (result.1.reorder boundary, result.2))
      (closeSession sim session reportIndex opened traded state)
      (closeSession sim session reportIndex (opened.reorder boundary) (traded.reorder boundary)
        (state.reorder boundary)) := by
  unfold closeSession
  simp only [TradedSession.reorder, Trading.reorder, Account.reorder, StrategyState.reorder,
    navOf_reorder]
  apply Mirrors.step
  intro _ _
  rw [← reorder_agePositions]
  apply (markClosePositions_reorder _).bind
  intro closed _
  simp only [navOf_reorder, closeMarksOf_reorder, positionPayload_reorder, holdingRows_reorder]
  apply Mirrors.step
  intro payload _
  apply Mirrors.step
  intro decision _
  have hdaily := dailyObservation_reorder hcanonical sim.rounding session boundary opened
    traded { traded.trading.account with positions := closed } state.lastDaily
    (navOf sim.rounding traded.trading.account.grossCash traded.trading.account.positions
      traded.marks)
    (navOf sim.rounding traded.trading.account.netCash traded.trading.account.positions
      traded.marks)
    (navOf sim.rounding traded.trading.account.netCash closed (closeMarksOf closed))
  simp only [TradedSession.reorder, Trading.reorder, Account.reorder] at hdaily
  rw [hdaily]
  exact .commit (StrategyState.mk { traded.trading.account with positions := closed } _ _ _, _)

/-! ### A session -/

/-- Nothing in a session reads the order of the positions: the holdings without an Open stand in
the order of purchase, and a capped target adds up to the same sum. -/
def SessionInOrder (sim : Simulation F S E) (boundary : Option Session) (session : Session)
    (state : StrategyState F S) : Prop :=
  CarriedInOrder sim.data session boundary state.account.positions
    ∧ ∀ target ∈ state.pendingTarget, ∀ opened,
      openSession sim.rounding sim.data session state.account = .ok opened →
        TargetInOrder sim.rounding boundary opened target

/-- A session of a restored run does what it does in the uninterrupted one. -/
theorem runSession_reorder {sim : Simulation F S E} (hcanonical : sim.floats.Canonical)
    {signal : Option Session} {reportIndex : ℤ} {state : StrategyState F S}
    (hafter : After boundary session) (horder : SessionInOrder sim boundary session state) :
    Mirrors (fun result : StrategyState F S × SessionRecord F E =>
        (result.1.reorder boundary, result.2))
      (runSession sim signal reportIndex state session)
      (runSession sim signal reportIndex (state.reorder boundary) session) := by
  obtain ⟨hcarried, hcapped⟩ := horder
  have hrest : Mirrors (fun result : StrategyState F S × SessionRecord F E =>
        (result.1.reorder boundary, result.2))
      (do
        let opened ← openSession sim.rounding sim.data session state.account
        let traded ← executePending sim.rounding sim.floats sim.data sim.costs session signal
          reportIndex state.pendingTarget opened
        closeSession sim session reportIndex opened traded state)
      (do
        let opened ← openSession sim.rounding sim.data session (state.account.reorder boundary)
        let traded ← executePending sim.rounding sim.floats sim.data sim.costs session signal
          reportIndex state.pendingTarget opened
        closeSession sim session reportIndex opened traded (state.reorder boundary)) := by
    apply (openSession_reorder hcarried).bind
    intro opened hopened
    have hopenedCarried : CarriedInOrder sim.data session boundary opened.account.positions := by
      rw [(openSession_ok hopened).2]
      exact hcarried.openMarked
    apply (executePending_reorder hafter hopenedCarried
      fun target htarget => hcapped target htarget opened hopened).bind
    intro traded _
    exact closeSession_reorder hcanonical
  unfold runSession
  have hpending : (state.reorder boundary).pendingTarget = state.pendingTarget := rfl
  have hpositions : (state.reorder boundary).account.positions
      = reorder boundary state.account.positions := rfl
  rw [hpending]
  cases htarget : state.pendingTarget with
  | none =>
    rw [htarget] at hrest
    exact hrest
  | some target =>
    rw [htarget] at hrest
    simp only [hpositions, checkTarget_reorder]
    apply Mirrors.step
    intro _ _
    exact hrest

end ThesisTrace.Strategy
