import ThesisTrace.Strategy.Reordering

/-!
# The report loop

An execution runs the sessions of a report one after another. What a session leaves carries
everything that the next one reads: its daily row, holdings that started by then, and events that
name the session.
-/

namespace ThesisTrace.Strategy
open Transaction

variable {F S E : Type} {sim : Simulation F S E} {session : Session}

/-! ### The report loop -/

/-- The session loop of a report. The signal session of a session is the one before it. -/
def runReport (sim : Simulation F S E) : ℕ → Option Session → List Session →
    StrategyState F S → Except StrategyError (StrategyState F S × List (SessionRecord F E))
  | _, _, [], state => return (state, [])
  | reportIndex, signal, session :: rest, state => do
    let (next, record) ← runSession sim signal reportIndex state session
    let (last, records) ← runReport sim (reportIndex + 1) (some session) rest next
    return (last, record :: records)

/-- The last session of a list, or the one before the list. -/
def lastOf (before : Option Session) (sessions : List Session) : Option Session :=
  sessions.getLast?.or before

@[simp] lemma lastOf_nil (before : Option Session) : lastOf before [] = before := rfl

@[simp] lemma lastOf_cons (before : Option Session) (session : Session)
    (sessions : List Session) :
    lastOf before (session :: sessions) = lastOf (some session) sessions := by
  unfold lastOf
  rw [List.getLast?_cons]
  cases sessions.getLast? <;> rfl

/-- Without a pending target the signal session is not read. -/
lemma runSession_signal {signal signal' : Option Session} {reportIndex : ℤ}
    {state : StrategyState F S} (h : state.pendingTarget = none) :
    runSession sim signal reportIndex state session
      = runSession sim signal' reportIndex state session := by
  unfold runSession executePending
  rw [h]

lemma signalSession_append {before rest : List Session} (hbefore : before ≠ []) :
    signalSession (before ++ rest) before.length = before.getLast? := by
  have hpos : 0 < before.length := List.length_pos_of_ne_nil hbefore
  unfold signalSession
  rw [if_neg hpos.ne', List.getLast?_eq_getElem?, List.getElem?_append_left (by omega)]

/-- The session loop over the end of a calendar is the report loop. -/
lemma runSessions_eq {calendar before sessions : List Session} {originIndex : ℤ}
    {reportIndex : ℕ} {state : StrategyState F S} (hnodup : calendar.Nodup)
    (hcalendar : calendar = before ++ sessions)
    (hindex : (before.length : ℤ) - originIndex = reportIndex)
    (hsignal : before ≠ [] ∨ state.pendingTarget = none) :
    runSessions sim calendar originIndex sessions state
      = runReport sim reportIndex before.getLast? sessions state := by
  induction sessions generalizing before reportIndex state with
  | nil => rfl
  | cons session rest ih =>
    have hnotMem : session ∉ before := by
      rw [hcalendar, List.nodup_append] at hnodup
      intro hmem
      exact hnodup.2.2 session hmem session List.mem_cons_self rfl
    have hidx : calendar.idxOf session = before.length := by
      rw [hcalendar, List.idxOf_append_of_notMem hnotMem, List.idxOf_cons_self, Nat.add_zero]
    have hfirst : runSession sim (signalSession calendar before.length)
        ((before.length : ℤ) - originIndex) state session
        = runSession sim before.getLast? reportIndex state session := by
      rw [hindex]
      rcases hsignal with hbefore | hpending
      · rw [hcalendar, signalSession_append hbefore]
      · exact runSession_signal hpending
    have hnext : before ++ session :: rest = (before ++ [session]) ++ rest := by simp
    unfold runSessions runReport
    rw [hidx]
    dsimp only
    rw [hfirst]
    apply bind_congr
    rintro ⟨next, record⟩
    have hindex' : ((before ++ [session]).length : ℤ) - originIndex = (reportIndex + 1 : ℕ) := by
      rw [List.length_append, List.length_singleton]
      push_cast
      omega
    have hlater : runSessions sim calendar originIndex rest next
        = runReport sim (reportIndex + 1) (before ++ [session]).getLast? rest next :=
      ih (hcalendar.trans hnext) hindex' (.inl (by simp))
    rw [List.getLast?_concat] at hlater
    simp only [hlater]

/-- A report continues where its first part stopped. -/
lemma runReport_append {reportIndex : ℕ} {signal : Option Session} {first rest : List Session}
    {state : StrategyState F S} :
    runReport sim reportIndex signal (first ++ rest) state = (do
      let (middle, records) ← runReport sim reportIndex signal first state
      let (last, later) ← runReport sim (reportIndex + first.length) (lastOf signal first) rest
        middle
      return (last, records ++ later)) := by
  induction first generalizing reportIndex signal state with
  | nil =>
    simp only [List.nil_append, runReport, pure_bind, List.length_nil, Nat.add_zero, lastOf_nil]
    cases runReport sim reportIndex signal rest state <;> rfl
  | cons session first ih =>
    have hindex : reportIndex + 1 + first.length = reportIndex + (session :: first).length := by
      rw [List.length_cons]
      omega
    simp only [List.cons_append, runReport, ih, bind_assoc, pure_bind, lastOf_cons, hindex]

/-! ### What a session leaves -/

/-- Every rejection was recorded in the session. -/
def Journal.RejectedAt (session : Session) (journal : Journal E) : Prop :=
  ∀ event ∈ journal.rejections, event.session = session

/-- Every holding started by the session. -/
def StartedBy (session : Session) (positions : Positions) : Prop :=
  ∀ id position, positions.lookup id = some position →
    position.holdingCycleStartedSession ≤ session

lemma StartedBy.mono {positions : Positions} {later : Session}
    (h : StartedBy session positions) (hle : session ≤ later) : StartedBy later positions :=
  fun id position hposition => (h id position hposition).trans hle

lemma StartedBy.openMarked {data : MarketData} {positions : Positions} {last : Session}
    (h : StartedBy last positions) : StartedBy last (openMarked data session positions) := by
  intro id marked hmarked
  obtain ⟨position, price, hposition, rfl⟩ := lookup_openMarked hmarked
  exact h id position hposition

lemma StartedBy.closed {data : MarketData} {positions : Positions} {last : Session}
    (h : StartedBy last positions) :
    StartedBy last (closeMarked data session (agePositions positions)) := by
  intro id closed hclosed
  obtain ⟨aged, price, haged, rfl⟩ := lookup_closeMarked hclosed
  obtain ⟨position, hposition, rfl⟩ := lookup_agePositions haged
  exact h id position hposition

lemma StartedBy.set {positions : Positions} {id : InstrumentId} {position : Position}
    (h : StartedBy session positions) (hposition : position.holdingCycleStartedSession ≤ session) :
    StartedBy session (OrderedMap.set positions id position) := by
  intro id' position' hlookup
  rw [OrderedMap.lookup_set] at hlookup
  split at hlookup
  · cases hlookup
    exact hposition
  · exact h id' position' hlookup

lemma StartedBy.erase {positions : Positions} {id : InstrumentId}
    (h : StartedBy session positions) : StartedBy session (positions.erase id) := by
  intro id' position hlookup
  rw [OrderedMap.erase_eq_filterMap, OrderedMap.lookup_filterMap, Option.bind_eq_some_iff]
    at hlookup
  obtain ⟨held, hheld, hkeep⟩ := hlookup
  split at hkeep
  · cases hkeep
  · cases hkeep
    exact h id' position hheld

variable {R : Rounding} {data : MarketData} {costs : Costs}

lemma executeOrder_startedBy {account : Account} {order : Order} {outcome : OrderOutcome}
    (h : StartedBy order.context.session account.positions)
    (hexecute : executeOrder R data costs account order = .ok outcome) :
    StartedBy order.context.session outcome.settlement.positions := by
  rcases executeOrder_cases hexecute with ⟨reason, rfl⟩ | ⟨price, -, hfill⟩
  · exact h
  · cases hside : order.side with
    | buy =>
      obtain ⟨_, _, _, _, -, -, -, -, -, hsettle⟩ := fillOrder_buy hside hfill
      rw [hsettle]
      apply h.set
      rw [boughtPosition_start]
      cases hheld : account.positions.lookup order.instrument with
      | none => exact le_rfl
      | some held => exact h order.instrument held hheld
    | sell =>
      obtain ⟨_, _, position, removed, -, -, hposition, -, -, -, -, hleft⟩ :=
        fillOrder_sell hside hfill
      rcases hleft with ⟨-, hpositions⟩ | ⟨-, rest, hrest, hpositions⟩
      · rw [hpositions]
        exact h.erase
      · rw [hpositions]
        apply h.set
        rw [reducedPosition_start hrest]
        exact h order.instrument position hposition

lemma executeOrder_rejections {account : Account} {order : Order} {outcome : OrderOutcome}
    (hexecute : executeOrder R data costs account order = .ok outcome) :
    ∀ event ∈ outcome.rejections, event.session = order.context.session := by
  rcases executeOrder_cases hexecute with ⟨reason, rfl⟩ | ⟨price, -, hfill⟩
  · intro event hevent
    rw [List.mem_singleton.mp hevent]
  · unfold fillOrder at hfill
    simp only [bind_ok_iff, pure_ok_iff] at hfill
    obtain ⟨_, _, _, _, _, _, rfl⟩ := hfill
    intro event hevent
    cases hevent

lemma Journal.RejectedAt.append {journal : Journal E} {rejections : List RejectionEvent}
    (h : journal.RejectedAt session) (hrejections : ∀ event ∈ rejections, event.session = session) :
    ∀ event ∈ journal.rejections ++ rejections, event.session = session := by
  intro event hevent
  rcases List.mem_append.mp hevent with hold | hnew
  · exact h event hold
  · exact hrejections event hnew

/-- What every step of the order loops keeps. -/
structure Trading.InSession (session : Session) (trading : Trading E) : Prop where
  started : StartedBy session trading.account.positions
  rejected : trading.journal.RejectedAt session

lemma Trading.InSession.book {trading : Trading E} (order : Order) {outcome : OrderOutcome}
    {journal : Journal E} (h : trading.InSession order.context.session)
    (hjournal : journal.RejectedAt order.context.session)
    (hexecute : executeOrder R data costs trading.account order = .ok outcome) :
    Trading.InSession order.context.session
      ⟨trading.account.settle R outcome, journal.record outcome⟩ where
  started := executeOrder_startedBy h.started hexecute
  rejected := hjournal.append (executeOrder_rejections hexecute)

lemma sellStep_inSession {terms : TargetTerms} {marks : Marks} {trading next : Trading E}
    {id : InstrumentId} (h : trading.InSession terms.session)
    (hstep : sellStep R terms marks trading id = .ok next) : next.InSession terms.session := by
  unfold sellStep at hstep
  simp only [bind_ok_iff] at hstep
  obtain ⟨position, -, intent?, -, hstep⟩ := hstep
  cases intent? with
  | none =>
    cases hstep
    exact h
  | some intent =>
    dsimp only at hstep
    split at hstep
    · cases hstep
      exact ⟨h.started, h.rejected⟩
    · unfold trade at hstep
      simp only [bind_ok_iff, pure_ok_iff] at hstep
      obtain ⟨outcome, hexecute, rfl⟩ := hstep
      exact Trading.InSession.book (terms.sellOrder id intent) h h.rejected hexecute

lemma buyDiagnose_rejections (id : InstrumentId) (unrounded : ℤ) (legalQuantity : ℕ)
    (journal : Journal E) :
    (buyDiagnose session id unrounded legalQuantity journal).rejections = journal.rejections := by
  unfold buyDiagnose
  split
  · split <;> rfl
  · rfl

lemma buySized_inSession {terms : TargetTerms} {buying next : Buying E} {id : InstrumentId}
    {deficit : ℚ} {unrounded : ℤ} {legalQuantity quantity : ℕ}
    (h : buying.trading.InSession terms.session)
    (hstep : buySized R terms buying id deficit unrounded legalQuantity quantity = .ok next) :
    next.trading.InSession terms.session := by
  unfold buySized at hstep
  dsimp only at hstep
  have hjournal : ∀ p : Prop, ∀ [Decidable p], Journal.RejectedAt terms.session
      (if p then buying.trading.journal.constrain (terms.buyConstraint id deficit unrounded
        legalQuantity quantity buying.trading.account.netCash) else buying.trading.journal) := by
    intro p _
    split <;> exact h.rejected
  split at hstep
  · cases hstep
    refine ⟨h.started, ?_⟩
    intro event hevent
    rw [buyDiagnose_rejections] at hevent
    exact hjournal _ event hevent
  · simp only [bind_ok_iff, pure_ok_iff] at hstep
    obtain ⟨outcome, hexecute, rfl⟩ := hstep
    exact Trading.InSession.book (terms.buyOrder id deficit unrounded quantity) h
      (hjournal _) hexecute

lemma buyStep_inSession {terms : TargetTerms} {buying next : Buying E} {id : InstrumentId}
    (h : buying.trading.InSession terms.session)
    (hstep : buyStep R terms buying id = .ok next) : next.trading.InSession terms.session := by
  unfold buyStep at hstep
  simp only [bind_ok_iff] at hstep
  obtain ⟨intent, -, hstep⟩ := hstep
  cases intent with
  | skipped =>
    cases hstep
    exact h
  | unavailable deficit reason =>
    cases hstep
    refine ⟨h.started, h.rejected.append ?_⟩
    intro event hevent
    rw [List.mem_singleton.mp hevent]
    rfl
  | ineligible =>
    cases hstep
    exact ⟨h.started, h.rejected⟩
  | sized deficit unrounded legal quantity => exact buySized_inSession h hstep

lemma executePending_inSession {B : Binary64 F} {signal : Option Session} {reportIndex : ℤ}
    {pending : Option PendingTarget} {opened : OpenedSession} {traded : TradedSession F E}
    (h : StartedBy session opened.account.positions)
    (htraded : executePending R B data costs session signal reportIndex pending opened
      = .ok traded) :
    traded.trading.InSession session := by
  unfold executePending at htraded
  cases pending with
  | none =>
    cases htraded
    exact ⟨h, fun _ hevent => by cases hevent⟩
  | some target =>
    simp only [bind_ok_iff, require_ok_iff, exists_const] at htraded
    obtain ⟨-, -, htarget⟩ := htraded
    unfold executeTarget at htarget
    simp only [bind_ok_iff, Prod.exists] at htarget
    obtain ⟨sizing, -, sold, hsold, start, events, hremark, bought, hbought, hsettle⟩ := htarget
    have hempty : Trading.InSession session
        (⟨opened.account, emptyTargetDiagnostics session target⟩ : Trading E) := by
      refine ⟨h, ?_⟩
      unfold emptyTargetDiagnostics
      split <;> exact fun _ hevent => by cases hevent
    have hsells : sold.InSession session :=
      foldlM_preserves (fun _ _ _ hs hstep => sellStep_inSession hs hstep) hempty hsold
    have hstart : start.trading.InSession session := by
      rw [(remarkForBuys_ok hremark).1]
      exact ⟨hsells.started.openMarked, hsells.rejected⟩
    have hbuys : bought.trading.InSession session :=
      foldlM_preserves (I := fun buying : Buying E => buying.trading.InSession session)
        (fun _ _ _ hs hstep => buyStep_inSession hs hstep) hstart hbought
    rw [(settleTarget_ok hsettle).1]
    exact ⟨hbuys.started.openMarked, hbuys.rejected⟩

/-- What a completed session leaves for the next one. -/
structure LeftBy (session : Session) (state : StrategyState F S)
    (record : SessionRecord F E) : Prop where
  lastDaily : state.lastDaily = some record.daily
  session_eq : record.daily.session = session
  booked : state.Booked
  started : StartedBy session state.account.positions
  payload : ∃ rows, positionPayload state.account.positions = .ok rows
  rejected : record.journal.RejectedAt session

lemma closeSession_leftBy {reportIndex : ℤ} {opened : OpenedSession}
    {traded : TradedSession F E} {state next : StrategyState F S} {record : SessionRecord F E}
    (htraded : traded.trading.InSession session)
    (h : closeSession sim session reportIndex opened traded state = .ok (next, record)) :
    LeftBy session next record := by
  obtain ⟨-, haccount, hlast, hdaily⟩ := closeSession_ok h
  have hbooked := closeSession_booked h
  unfold closeSession at h
  simp only [bind_ok_iff, pure_ok_iff, require_ok_iff, exists_const, Prod.mk.injEq] at h
  obtain ⟨-, closed, -, payload, hpayload, decision, -, rfl, rfl⟩ := h
  refine ⟨hlast, by rw [hdaily]; rfl, hbooked, ?_, ⟨payload, hpayload⟩, htraded.rejected⟩
  rw [haccount]
  exact htraded.started.closed

/-- A session that starts with holdings of earlier sessions leaves holdings of its own. -/
lemma runSession_leftBy {signal : Option Session} {reportIndex : ℤ}
    {state next : StrategyState F S} {record : SessionRecord F E}
    (hstarted : StartedBy session state.account.positions)
    (h : runSession sim signal reportIndex state session = .ok (next, record)) :
    LeftBy session next record := by
  obtain ⟨opened, traded, -, hopen, htraded, hclose⟩ := runSession_ok h
  have hopened : StartedBy session opened.account.positions := by
    rw [(openSession_ok hopen).2]
    exact hstarted.openMarked
  exact closeSession_leftBy (executePending_inSession hopened htraded) hclose

/-! ### What a report leaves -/

/-- A report publishes its sessions in order, each with its own rejections. -/
lemma runReport_records {reportIndex : ℕ} {signal : Option Session} {sessions : List Session}
    {state last : StrategyState F S} {records : List (SessionRecord F E)}
    (hsorted : sessions.Pairwise (· < ·))
    (hstarted : ∀ session ∈ sessions, StartedBy session state.account.positions)
    (h : runReport sim reportIndex signal sessions state = .ok (last, records)) :
    records.map (fun record => record.daily.session) = sessions
      ∧ ∀ record ∈ records, record.journal.RejectedAt record.daily.session := by
  induction sessions generalizing reportIndex signal state records with
  | nil =>
    cases h
    exact ⟨rfl, fun _ hmem => nomatch hmem⟩
  | cons session rest ih =>
    obtain ⟨hfirst, hrest⟩ := List.pairwise_cons.mp hsorted
    unfold runReport at h
    simp only [bind_ok_iff, pure_ok_iff, Prod.exists, Prod.mk.injEq] at h
    obtain ⟨next, record, hrun, last', later, hlater, rfl, rfl⟩ := h
    have hleft := runSession_leftBy (hstarted session List.mem_cons_self) hrun
    have hnext : ∀ session' ∈ rest, StartedBy session' next.account.positions :=
      fun session' hmem => hleft.started.mono (hfirst session' hmem).le
    obtain ⟨hsessions, hrejected⟩ := ih hrest hnext hlater
    constructor
    · rw [List.map_cons, hsessions, hleft.session_eq]
    · intro record' hmem
      rcases List.mem_cons.mp hmem with rfl | hmem
      · rw [hleft.session_eq]
        exact hleft.rejected
      · exact hrejected record' hmem

/-- The state after a report is what its last session left. -/
lemma runReport_left {reportIndex : ℕ} {signal : Option Session} {sessions : List Session}
    {state last : StrategyState F S} {records : List (SessionRecord F E)} {final : Session}
    (hsorted : sessions.Pairwise (· < ·))
    (hstarted : ∀ session ∈ sessions, StartedBy session state.account.positions)
    (hfinal : sessions.getLast? = some final)
    (h : runReport sim reportIndex signal sessions state = .ok (last, records)) :
    ∃ record, records.getLast? = some record ∧ LeftBy final last record := by
  induction sessions generalizing reportIndex signal state records with
  | nil => cases hfinal
  | cons session rest ih =>
    obtain ⟨hfirst, hrest⟩ := List.pairwise_cons.mp hsorted
    unfold runReport at h
    simp only [bind_ok_iff, pure_ok_iff, Prod.exists, Prod.mk.injEq] at h
    obtain ⟨next, record, hrun, last', later, hlater, rfl, rfl⟩ := h
    have hleft := runSession_leftBy (hstarted session List.mem_cons_self) hrun
    have hnext : ∀ session' ∈ rest, StartedBy session' next.account.positions :=
      fun session' hmem => hleft.started.mono (hfirst session' hmem).le
    cases rest with
    | nil =>
      cases hfinal
      cases hlater
      exact ⟨record, rfl, hleft⟩
    | cons session' rest =>
      rw [List.getLast?_cons_cons] at hfinal
      obtain ⟨record', hlast, hleft'⟩ := ih hrest hnext hfinal hlater
      refine ⟨record', ?_, hleft'⟩
      rw [List.getLast?_cons, hlast]
      rfl

/-- The last row of a report books the cost of the account. -/
lemma runReport_cost {reportIndex : ℕ} {signal : Option Session} {sessions : List Session}
    {state last : StrategyState F S} {records : List (SessionRecord F E)} {final : Session}
    (hsorted : sessions.Pairwise (· < ·))
    (hstarted : ∀ session ∈ sessions, StartedBy session state.account.positions)
    (hfinal : sessions.getLast? = some final)
    (h : runReport sim reportIndex signal sessions state = .ok (last, records)) :
    ((records.map SessionRecord.daily).getLast?.map
        DailyObservation.cumulativeTransactionCost) = some last.account.cumulativeCost := by
  obtain ⟨record, hrecord, hleft⟩ := runReport_left hsorted hstarted hfinal h
  have hcost := (hleft.booked record.daily hleft.lastDaily).2.2
  rw [List.getLast?_map, hrecord]
  exact congrArg some hcost

end ThesisTrace.Strategy
