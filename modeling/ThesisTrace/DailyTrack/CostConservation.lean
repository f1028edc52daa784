import ThesisTrace.DailyTrack.Advances
import ThesisTrace.Strategy.SessionExecution

/-!
# Retained tracking costs

The boundary row stands before the rows of an Advance, so that every retained cost is a difference
of two rows of the same Advance. Over all checkpoints the differences telescope.
-/

namespace ThesisTrace.DailyTrack.Advances
open Strategy Transaction LabelledTransition

variable {F S E : Type} {sim : Simulation F S E}

/-! ### Rows of an execution -/

lemma runSession_session {signal : Option Strategy.Session} {reportIndex : ℤ}
    {session : Strategy.Session} {state next : StrategyState F S} {record : SessionRecord F E}
    (h : runSession sim signal reportIndex state session = .ok (next, record)) :
    record.daily.session = session := by
  obtain ⟨opened, traded, -, -, -, hclose⟩ := runSession_ok h
  obtain ⟨-, -, -, hdaily⟩ := closeSession_ok hclose
  rw [hdaily]
  rfl

/-- The loop appends one row a session. -/
lemma runSessions_sessions {calendar sessions : List Strategy.Session} {originIndex : ℤ}
    {state last : StrategyState F S} {records : List (SessionRecord F E)}
    (h : runSessions sim calendar originIndex sessions state = .ok (last, records)) :
    records.map (fun record => record.daily.session) = sessions := by
  induction sessions generalizing state records with
  | nil =>
    cases h
    rfl
  | cons session rest ih =>
    unfold runSessions at h
    simp only [bind_ok_iff, pure_ok_iff, Prod.exists, Prod.mk.injEq] at h
    obtain ⟨next, record, hrun, _, later, hlater, rfl, rfl⟩ := h
    rw [List.map_cons, runSession_session hrun, ih hlater]

/-- An execution runs the sessions of its calendar after the last resumed row. -/
lemma executeStrategy_sessions {calendar : List Strategy.Session} {originSession : Strategy.Session}
    {continuation : Continuation F S} {last : DailyObservation F} {execution : Execution F S E}
    (hlast : continuation.daily.getLast? = some last)
    (h : executeStrategy sim calendar originSession (some continuation) = .ok execution) :
    execution.records.map (fun record => record.daily.session) =
      calendar.drop (calendar.idxOf last.session + 1) := by
  simp only [executeStrategy, startExecution, hlast, bind_ok_iff, found_ok_iff, pure_ok_iff,
    Option.some.injEq, Prod.exists] at h
  obtain ⟨_, ⟨_, rfl, _, -, _, -, _, -, rfl⟩, _, _, hrun, _, -, _, -, rfl⟩ := h
  exact runSessions_sessions hrun

/-! ### Telescoping costs -/

lemma strategyObservations_session (R : Rounding) (rejections : List RejectionEvent) (cost : ℚ)
    (daily : List (DailyObservation F)) :
    (strategyObservations R rejections cost daily).map StrategyObservation.session =
      daily.map DailyObservation.session := by
  induction daily generalizing cost with
  | nil => rfl
  | cons row rest ih =>
    unfold strategyObservations
    rw [List.map_cons, List.map_cons, ih]

/-- Exact costs add up to what the last row has booked since the first. -/
lemma strategyObservations_cost (rejections : List RejectionEvent) (cost : ℚ)
    (daily : List (DailyObservation F)) :
    ((strategyObservations .exact rejections cost daily).map
      StrategyObservation.transactionCost).sum =
      (daily.getLast?.map DailyObservation.cumulativeTransactionCost).getD cost - cost := by
  induction daily generalizing cost with
  | nil => simp [strategyObservations]
  | cons row rest ih =>
    have hrest := ih row.cumulativeTransactionCost
    unfold strategyObservations
    rw [List.map_cons, List.sum_cons, hrest, List.getLast?_cons]
    cases rest.getLast? <;> simp

/-- The boundary row is not retained, the rows after it are. -/
lemma minimalStrategyObservations_resumed {R : Rounding} {rejections : List RejectionEvent}
    {boundary : DailyObservation F} {rows : List (DailyObservation F)}
    {retained : List Strategy.Session} (hboundary : boundary.session ∉ retained)
    (hrows : rows.map DailyObservation.session = retained) :
    minimalStrategyObservations R rejections retained (boundary :: rows) =
      strategyObservations R rejections boundary.cumulativeTransactionCost rows := by
  rw [minimalStrategyObservations, strategyObservations, List.filter_cons_of_neg
    (by simpa using hboundary), List.filter_eq_self]
  intro row hrow
  have hmem : row.session ∈ (strategyObservations R rejections boundary.cumulativeTransactionCost
      rows).map StrategyObservation.session := List.mem_map_of_mem hrow
  rw [strategyObservations_session, hrows] at hmem
  exact decide_eq_true hmem

/-! ### One Advance -/

lemma acceptTargetResearchData_spec {prior target appended : List Strategy.Session}
    (h : acceptTargetResearchData prior target appended = .ok ()) :
    appended ≠ [] ∧ appended.Pairwise (· < ·) ∧ target.drop prior.length = appended := by
  simp only [acceptTargetResearchData, bind_ok_iff, require_ok_iff, exists_const] at h
  exact ⟨h.1, h.2.1, h.2.2.2⟩

lemma Predecessor.restore_spec {predecessor : Predecessor F S} {calendar : List Strategy.Session}
    {state : KernelState F S} (h : predecessor.restore calendar = .ok state) :
    state.calendar = calendar ∧ state.strategyResume = predecessor.terminal.resume := by
  cases predecessor with
  | activation terminal =>
    cases h
    exact ⟨rfl, rfl⟩
  | checkpoint published =>
    simp only [Predecessor.restore, restoreTrackingCheckpoint, bind_ok_iff, pure_ok_iff] at h
    obtain ⟨_, -, rfl⟩ := h
    exact ⟨rfl, rfl⟩

/-- The rows of an Advance are the boundary row and one row for every new session. -/
lemma advanceTracking_spec {originSession : Strategy.Session} {prior state : KernelState F S}
    {target appended : List Strategy.Session} {terminal : TerminalStrategyState F S}
    (hresume : prior.strategyResume = terminal.resume)
    (hprior : target.idxOf terminal.session + 1 = prior.calendar.length)
    (h : advanceTracking sim originSession prior target appended = .ok state) :
    state.calendar = target ∧ appended ≠ [] ∧ target.drop prior.calendar.length = appended ∧
      ∃ rows, state.daily = terminal.lastDailyObservation :: rows ∧
        rows.map DailyObservation.session = appended := by
  simp only [advanceTracking, bind_ok_iff, mapError_ok_iff, pure_ok_iff] at h
  obtain ⟨_, haccept, execution, hexecution, rfl⟩ := h
  obtain ⟨hne, -, hdrop⟩ := acceptTargetResearchData_spec haccept
  rw [hresume] at hexecution
  have hlast : terminal.resume.daily.getLast? = some terminal.lastDailyObservation := rfl
  have hsessions := executeStrategy_sessions hlast hexecution
  rw [terminal.last_session, hprior, hdrop] at hsessions
  refine ⟨rfl, hne, hdrop, execution.records.map SessionRecord.daily, ?_, ?_⟩
  · rw [hresume]
    rfl
  · rw [List.map_map]
    exact hsessions

/-- A target stands behind the current session in an ordered calendar. -/
lemma target_increasing {calendar sessions : List Strategy.Session} {current : Strategy.Session}
    {count : ℕ}
    (hsorted : calendar.Pairwise (· < ·)) (hcurrent : current ∈ calendar)
    (htarget : (calendar.take count).drop (calendar.idxOf current + 1) = sessions) :
    (current :: sessions).Pairwise (· < ·) := by
  have hindex : calendar.idxOf current < calendar.length := List.idxOf_lt_length_of_mem hcurrent
  have hbehind : calendar.drop (calendar.idxOf current) =
      current :: calendar.drop (calendar.idxOf current + 1) := by
    rw [List.drop_eq_getElem_cons hindex, List.getElem_idxOf]
  have hsublist : (current :: sessions).Sublist calendar := by
    rw [← htarget, List.drop_take]
    refine List.Sublist.trans ?_ (List.drop_sublist (calendar.idxOf current) calendar)
    rw [hbehind]
    exact (List.take_sublist _ _).cons_cons _
  exact hsorted.sublist hsublist

/-- What a checkpoint of an Advance keeps. -/
structure Advanced (target : TrackingTarget F S E) (predecessor : Predecessor F S)
    (checkpoint : TrackingCheckpoint F S) : Prop where
  sessions : checkpoint.retainedDelta.map StrategyObservation.session = target.sessions
  increasing : (predecessor.boundarySession :: target.sessions).Pairwise (· < ·)
  boundary : target.sessions.getLast? = some checkpoint.boundarySession
  terminal : checkpoint.terminal.session = checkpoint.boundarySession
  booked : checkpoint.terminal.cumulativeTransactionCost =
    checkpoint.terminal.lastDailyObservation.cumulativeTransactionCost
  costs : target.simulation.rounding = .exact →
    (checkpoint.retainedDelta.map StrategyObservation.transactionCost).sum =
      checkpoint.terminal.cumulativeTransactionCost -
        predecessor.terminal.lastDailyObservation.cumulativeTransactionCost

lemma executeTrackingTarget_advanced {target : TrackingTarget F S E}
    {predecessor : Predecessor F S} {checkpoint : TrackingCheckpoint F S}
    (hboundary : predecessor.terminal.session = predecessor.boundarySession)
    (h : executeTrackingTarget target predecessor = .ok checkpoint) :
    Advanced target predecessor checkpoint := by
  simp only [executeTrackingTarget, bind_ok_iff, found_ok_iff, require_ok_iff, exists_const] at h
  obtain ⟨last, hlast, ⟨hcurrent, -⟩, htarget, hlocal, prior, hprior, state, hstate, hreached,
    hproject⟩ := h
  obtain ⟨hcalendar, hresume⟩ := predecessor.restore_spec hprior
  have hindex := List.idxOf_lt_length_of_mem hlocal
  obtain ⟨-, -, -, rows, hdaily, hrows⟩ := advanceTracking_spec hresume
    (by rw [hboundary, hcalendar, List.length_take]; omega) hstate
  have hincreasing := target_increasing target.calendar_sorted hcurrent htarget
  have hfresh : predecessor.terminal.lastDailyObservation.session ∉ target.sessions := by
    rw [predecessor.terminal.last_session, hboundary]
    exact fun hmem => lt_irrefl _ ((List.pairwise_cons.mp hincreasing).1 _ hmem)
  simp only [projectTrackingCheckpoint, bind_ok_iff, found_ok_iff, require_ok_iff, exists_const,
    pure_ok_iff] at hproject
  obtain ⟨hretained, terminal, hterminal, boundary, hboundarySession, observed, -, rfl⟩ := hproject
  rw [hboundarySession, Option.some.injEq] at hreached
  rw [hdaily, List.getLast?_cons] at hterminal
  have hdelta : minimalStrategyObservations target.simulation.rounding state.rejections
      target.sessions state.daily = strategyObservations target.simulation.rounding
        state.rejections predecessor.terminal.lastDailyObservation.cumulativeTransactionCost
        rows := by
    rw [hdaily, minimalStrategyObservations_resumed hfresh hrows]
  have hlastRow : rows.getLast?.map DailyObservation.session = some last := by
    rw [← List.getLast?_map, hrows, hlast]
  cases hrow : rows.getLast? with
  | none =>
    rw [hrow] at hlastRow
    cases hlastRow
  | some row =>
    rw [hrow, Option.getD_some, Option.some.injEq] at hterminal
    rw [hrow, Option.map_some, Option.some.injEq] at hlastRow
    refine ⟨hretained, hincreasing, ?_, ?_, rfl, fun hexact => ?_⟩
    · rw [hlast, hreached]
    · rw [hreached, ← hlastRow, hterminal]
      rfl
    · rw [hdelta, hexact, strategyObservations_cost, hrow, hterminal]
      rfl

/-! ### Chains of Advances -/

/-- What the checkpoints of a Track have retained since its origin. -/
structure Conserves (origin : TerminalStrategyState F S) (sessions : List Strategy.Session)
    (track : Track F S) : Prop where
  retained : track.retained.map StrategyObservation.session = sessions
  increasing : (origin.session :: sessions).Pairwise (· < ·)
  boundary : (origin.session :: sessions).getLast? = some track.predecessor.boundarySession
  terminal : track.predecessor.terminal.session = track.predecessor.boundarySession
  booked : track.predecessor.terminal.cumulativeTransactionCost =
    track.predecessor.terminal.lastDailyObservation.cumulativeTransactionCost
  costs : (track.retained.map StrategyObservation.transactionCost).sum =
    track.predecessor.terminal.cumulativeTransactionCost - origin.cumulativeTransactionCost

lemma Track.retained_append (predecessor : Predecessor F S)
    (checkpoints : List (TrackingCheckpoint F S)) (checkpoint : TrackingCheckpoint F S) :
    (Track.mk predecessor (checkpoints ++ [checkpoint])).retained =
      checkpoints.flatMap TrackingCheckpoint.retainedDelta ++ checkpoint.retainedDelta := by
  simp [Track.retained]

/-- Sessions behind the last of some increasing sessions. -/
lemma pairwise_append_of_last {sessions later : List Strategy.Session} {last : Strategy.Session}
    (h : sessions.Pairwise (· < ·)) (hlast : sessions.getLast? = some last)
    (hlater : (last :: later).Pairwise (· < ·)) : (sessions ++ later).Pairwise (· < ·) := by
  obtain ⟨hafter, hrest⟩ := List.pairwise_cons.mp hlater
  refine List.pairwise_append.mpr ⟨h, hrest, fun session hsession next hnext => ?_⟩
  obtain ⟨before, rfl⟩ := List.getLast?_eq_some_iff.mp hlast
  rcases List.mem_append.mp hsession with hbefore | hend
  · have hless := (List.pairwise_append.mp h).2.2 session hbefore last (List.mem_singleton_self _)
    exact hless.trans (hafter next hnext)
  · rw [List.mem_singleton.mp hend]
    exact hafter next hnext

lemma Conserves.advance {origin : TerminalStrategyState F S} {sessions : List Strategy.Session}
    {track next : Track F S} {target : TrackingTarget F S E} (h : Conserves origin sessions track)
    (hexact : target.simulation.rounding = .exact) (hcommit : Commits track target next) :
    Conserves origin (sessions ++ target.sessions) next := by
  simp only [Commits, Track.advance, bind_ok_iff, pure_ok_iff] at hcommit
  obtain ⟨checkpoint, hexecute, rfl⟩ := hcommit
  have hadvanced := executeTrackingTarget_advanced h.terminal hexecute
  refine ⟨?_, ?_, ?_, hadvanced.terminal, hadvanced.booked, ?_⟩
  · rw [Track.retained_append, List.map_append, hadvanced.sessions]
    exact congrArg (· ++ target.sessions) h.retained
  · exact pairwise_append_of_last h.increasing h.boundary hadvanced.increasing
  · rw [← List.cons_append, List.getLast?_append, hadvanced.boundary]
    rfl
  · have hbefore := h.costs
    have hstep := hadvanced.costs hexact
    rw [← h.booked] at hstep
    rw [Track.retained_append, List.map_append, List.sum_append, hstep]
    change (track.retained.map StrategyObservation.transactionCost).sum + _ = _
    rw [hbefore]
    exact sub_add_sub_cancel' _ _ _

/-- In exact decimals the retained costs of a Track are what its boundary has booked since the
origin, and the retained sessions are the sessions of its Advances, in order. -/
theorem retained_costs_conserve {execution : Execution F S E} {completed : ℕ}
    {origin : TerminalStrategyState F S} (horigin : runTerminal execution completed = some origin)
    {targets : List (TrackingTarget F S E)} {track : Track F S}
    (hexact : ∀ target ∈ targets, target.simulation.rounding = .exact)
    (h : Exec Commits (Track.activated origin) targets track) :
    (track.retained.map StrategyObservation.transactionCost).sum =
        track.predecessor.terminal.cumulativeTransactionCost - origin.cumulativeTransactionCost ∧
      track.retained.map StrategyObservation.session =
        targets.flatMap TrackingTarget.sessions ∧
      (origin.session :: targets.flatMap TrackingTarget.sessions).Pairwise (· < ·) := by
  have hbooked : origin.cumulativeTransactionCost =
      origin.lastDailyObservation.cumulativeTransactionCost := by
    obtain ⟨row, -, rfl⟩ := Option.map_eq_some_iff.mp horigin
    rfl
  have hrun : Conserves origin (targets.flatMap TrackingTarget.sessions) track := by
    induction h with
    | nil => exact ⟨rfl, by simp, rfl, rfl, hbooked, by simp [Track.activated, Track.retained,
        Predecessor.terminal]⟩
    | snoc hexec hcommit ih =>
      rw [List.flatMap_append, List.flatMap_singleton]
      exact (ih fun target hmem => hexact target (List.mem_append_left _ hmem)).advance
        (hexact _ (List.mem_append_right _ (List.mem_singleton_self _))) hcommit
  exact ⟨hrun.costs, hrun.retained, hrun.increasing⟩

/-! ### A Track of two Advances -/

/-- Two stocks bought on session 2, and one of them sold for a third one on session 3. -/
def trackedSimulation : Simulation ℚ Unit Unit where
  rounding := .exact
  floats := rationalBinary64
  data := sampleMarket fun session id => some (10 + id + session)
  costs := sampleCosts 5
  initialCash := 100000
  initialCash_pos := hundredThousand_pos
  decide := plannedDecisions fun session =>
    if session = 1 then some (equalTarget 1 [2, 1] nodup_second_first)
    else if session = 2 then some (equalTarget 2 [3, 1] nodup_third_first)
    else none

lemma seed_runs : stoppedBy (executeStrategy trackedSimulation [1, 2] 1 none) = none := by
  decide +kernel

lemma seed_terminal : (runTerminal (okValue _ seed_runs) 2).isSome := by
  decide +kernel

def seedOrigin : TerminalStrategyState ℚ Unit :=
  (runTerminal (okValue _ seed_runs) 2).get seed_terminal

def trackedTarget (session : Strategy.Session) : TrackingTarget ℚ Unit Unit where
  simulation := trackedSimulation
  originSession := 1
  calendar := [1, 2, 3, 4]
  calendar_sorted := by decide
  calculationStart := 0
  effectiveLookback := 0
  sessions := [session]

def trackedTrack : Except TrackingError (Track ℚ Unit) := do
  let track ← (Track.activated seedOrigin).advance (trackedTarget 3)
  track.advance (trackedTarget 4)

lemma trackedTrack_runs : trackedTrack.toOption.isSome := by
  decide +kernel

theorem retained_costs_conserve_sample : ∃ track,
    Exec Commits (Track.activated seedOrigin) [trackedTarget 3, trackedTarget 4] track ∧
      (track.retained.map StrategyObservation.transactionCost).sum =
        track.predecessor.terminal.cumulativeTransactionCost -
          seedOrigin.cumulativeTransactionCost ∧
      track.retained.map StrategyObservation.session = [3, 4] := by
  obtain ⟨track, htrack⟩ : ∃ track, trackedTrack = .ok track := by
    have hruns := trackedTrack_runs
    cases hresult : trackedTrack with
    | error e => simp [hresult, Except.toOption] at hruns
    | ok track => exact ⟨track, rfl⟩
  simp only [trackedTrack, bind_ok_iff] at htrack
  obtain ⟨middle, hfirst, hsecond⟩ := htrack
  have hexec : Exec Commits (Track.activated seedOrigin) [trackedTarget 3, trackedTarget 4] track :=
    .cons hfirst (.single hsecond)
  have hexact : ∀ target ∈ [trackedTarget 3, trackedTarget 4],
      target.simulation.rounding = .exact := by
    simp [trackedTarget, trackedSimulation]
  obtain ⟨hcosts, hsessions, -⟩ := retained_costs_conserve (Option.some_get seed_terminal).symm
    hexact hexec
  exact ⟨track, hexec, hcosts, hsessions⟩

end ThesisTrace.DailyTrack.Advances
