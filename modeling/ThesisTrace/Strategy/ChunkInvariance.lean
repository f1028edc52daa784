import ThesisTrace.Strategy.Reordering
import ThesisTrace.Strategy.Report

/-!
# Chunk invariance

A report executed chunk by chunk publishes what one execution over all its sessions publishes.
`runChunk` is the part of an uninterrupted execution that covers one chunk: it carries the
account itself, not its projection. A chunk that starts from the projected continuation mirrors
it as long as no session reads the order of the positions, and consecutive parts compose.
-/

namespace ThesisTrace.Strategy
open Transaction

variable {F S E D : Type} {sim : Simulation F S E} {plan : ChunkPlan F S E D}

/-! ### Metric batches -/

lemma RejectionCounts.add_append (counts : RejectionCounts) (first rest : List RejectionReason) :
    counts.add (first ++ rest) = (counts.add first).add rest := by
  simp only [RejectionCounts.add, List.count_append, Nat.add_assoc]

/-- Feeding two batches is feeding their concatenation. -/
lemma advanceMetrics_append {B : Binary64 F} {prior : Option (StrategyMetricState F)}
    (cost : ℚ) {initialCash cost' : ℚ} {first rest : List (SessionRecord F E)}
    (hfirst : first ≠ []) :
    advanceMetrics B prior initialCash (metricBatch (first ++ rest) cost')
      = (do
        let middle ← advanceMetrics B prior initialCash (metricBatch first cost)
        advanceMetrics B (some middle) initialCash (metricBatch rest cost')) := by
  have hdaily : (first.map fun record => record.daily.metricRow) ≠ [] := by simpa using hfirst
  unfold advanceMetrics advanceStrategyMetricState metricBatch
  simp only [List.map_append, List.flatMap_append, List.foldlM_append]
  by_cases hcash : (prior.getD (emptyMetricState initialCash)).initialCash = initialCash
  · simp only [require, hcash, if_true, ok_bind]
    cases hfold : (first.map fun record => record.daily.metricRow).foldlM (observe B)
        (prior.getD (emptyMetricState initialCash)).observed with
    | error e => rfl
    | ok observed =>
      have hsome := foldlM_observe_isSome hfold hdaily
      simp only [ok_bind, hsome, if_true, pure, Except.pure, ok_mapError, Option.getD_some]
      cases (rest.map fun record => record.daily.metricRow).foldlM (observe B) observed with
      | error e => rfl
      | ok final =>
        simp only [ok_bind, List.sum_append, List.length_append, RejectionCounts.add_append,
          Rat.add_assoc, Nat.add_assoc]
  · simp only [require, hcash, if_false]
    rfl

/-! ### Published rows -/

/-- Rejections of other sessions do not show in a row. -/
lemma strategyObservations_congr {R : Rounding} {rejections rejections' : List RejectionEvent}
    {rows : List (DailyObservation F)} {cost : ℚ}
    (h : ∀ row ∈ rows, rejections.filter (fun event => event.session = row.session)
      = rejections'.filter fun event => event.session = row.session) :
    strategyObservations R rejections cost rows = strategyObservations R rejections' cost rows := by
  induction rows generalizing cost with
  | nil => rfl
  | cons row rows ih =>
    unfold strategyObservations
    rw [h row List.mem_cons_self, ih fun row' hrow' => h row' (List.mem_cons_of_mem _ hrow')]

lemma strategyObservations_append {R : Rounding} {rejections : List RejectionEvent}
    {first rest : List (DailyObservation F)} {cost : ℚ} :
    strategyObservations R rejections cost (first ++ rest)
      = strategyObservations R rejections cost first
        ++ strategyObservations R rejections
          ((first.getLast?.map DailyObservation.cumulativeTransactionCost).getD cost) rest := by
  induction first generalizing cost with
  | nil => rfl
  | cons row first ih =>
    simp only [List.cons_append, strategyObservations, ih, List.getLast?_cons]
    cases first.getLast? <;> rfl

lemma filter_rejections_eq_nil {records : List (SessionRecord F E)} {session : Session}
    (hrejected : ∀ record ∈ records, record.journal.RejectedAt record.daily.session)
    (hsession : session ∉ records.map fun record => record.daily.session) :
    (records.flatMap fun record => record.journal.rejections).filter
      (fun event => event.session = session) = [] := by
  rw [List.filter_eq_nil_iff]
  intro event hevent
  obtain ⟨record, hrecord, hmem⟩ := List.mem_flatMap.mp hevent
  have hat := hrejected record hrecord event hmem
  intro heq
  apply hsession
  rw [List.mem_map]
  exact ⟨record, hrecord, by rw [← hat]; exact of_decide_eq_true heq⟩

/-! ### The uninterrupted execution -/

/-- Where an uninterrupted execution stands between two chunks. -/
structure Progress (F S D : Type) where
  state : StrategyState F S
  resumed : Option (Session × StrategyMetricState F)
  checksum : Option D
  completed : ℕ

def Progress.start (sim : Simulation F S E) : Progress F S D :=
  ⟨initialState sim, none, none, 0⟩

/-- The last session that has been executed. -/
def Progress.boundary (progress : Progress F S D) : Option Session :=
  progress.resumed.map Prod.fst

/-- What an uninterrupted execution publishes over the sessions of one chunk. -/
structure ReportPart (F S E D : Type) where
  progress : Progress F S D
  observations : List (StrategyObservation F)
  records : List (SessionRecord F E)

def runChunk (plan : ChunkPlan F S E D) (progress : Progress F S D) (sessions : List Session) :
    Except StrategyError (ReportPart F S E D) := do
  let sim := plan.simulation
  let last ← found sessions.getLast? StrategyError.noHistory
  let (state, records) ← runReport sim progress.completed progress.boundary sessions progress.state
  let metricState ← advanceMetrics sim.floats (progress.resumed.map Prod.snd) sim.initialCash
    (metricBatch records state.account.cumulativeCost)
  let observations := strategyObservations sim.rounding
    (records.flatMap fun record => record.journal.rejections)
    progress.state.account.cumulativeCost (records.map SessionRecord.daily)
  return {
    progress :=
      { state := state
        resumed := some (last, metricState)
        checksum := observations.foldl
          (fun checksum row => some (plan.advanceChecksum checksum row)) progress.checksum
        completed := progress.completed + sessions.length }
    observations := observations
    records := records }

def runChunks (plan : ChunkPlan F S E D) :
    List (List Session) → Progress F S D → Except StrategyError (ReportPart F S E D)
  | [], progress => return ⟨progress, [], []⟩
  | sessions :: rest, progress => do
    let part ← runChunk plan progress sessions
    let later ← runChunks plan rest part.progress
    return ⟨later.progress, part.observations ++ later.observations, part.records ++ later.records⟩

/-- The position rows that an execution leaves. -/
def payloadRows (positions : Positions) : List PositionRow :=
  match positionPayload positions with
  | .ok rows => rows
  | .error _ => []

/-- The bounded continuation of an uninterrupted execution. -/
def Progress.project (progress : Progress F S D) : ChunkState F S D where
  strategyState := progress.resumed.map fun resumed =>
    { daily := progress.state.lastDaily.toList
      positions := payloadRows progress.state.account.positions
      reportSessionCount := progress.completed
      decisionState := progress.state.decisionState
      pendingTarget := progress.state.pendingTarget
      metricState := resumed.2 }
  strategyChecksum := progress.checksum
  completedSessions := progress.completed

def ReportPart.outcome (part : ReportPart F S E D) : ChunkOutcome F S E D :=
  ⟨part.progress.project, part.observations, part.records⟩

/-- An execution that has completed sessions, the last of them `last`. -/
structure Progress.ResumedAt (sim : Simulation F S E) (progress : Progress F S D)
    (last : Session) (metricState : StrategyMetricState F) : Prop where
  initialCash : metricState.initialCash = sim.initialCash
  completed_pos : 0 < progress.completed
  left : ∃ record : SessionRecord F E, LeftBy last progress.state record

/-- An execution has not started, or its last session left what the next one reads. -/
def Progress.Sound (sim : Simulation F S E) (progress : Progress F S D) : Prop :=
  match progress.resumed with
  | none => progress.state = initialState sim ∧ progress.completed = 0
  | some (last, metricState) => progress.ResumedAt sim last metricState

lemma Progress.start_sound : (Progress.start sim : Progress F S D).Sound sim :=
  ⟨rfl, rfl⟩

/-- Sessions that follow the last executed one, in order. -/
structure Follows (progress : Progress F S D) (sessions : List Session) : Prop where
  sorted : sessions.Pairwise (· < ·)
  later : ∀ session ∈ sessions, After progress.boundary session

lemma Follows.started {progress : Progress F S D} {sessions : List Session}
    (hsound : progress.Sound sim) (h : Follows progress sessions) :
    ∀ session ∈ sessions, StartedBy session progress.state.account.positions := by
  intro session hsession
  unfold Progress.Sound at hsound
  cases hresumed : progress.resumed with
  | none =>
    rw [hresumed] at hsound
    obtain ⟨hstate, -⟩ := hsound
    rw [hstate]
    intro id position hlookup
    cases hlookup
  | some resumed =>
    obtain ⟨last, metricState⟩ := resumed
    rw [hresumed] at hsound
    obtain ⟨record, hleft⟩ := hsound.left
    have hlast : last < session := by
      apply h.later session hsession
      unfold Progress.boundary
      rw [hresumed]
      rfl
    exact hleft.started.mono hlast.le

lemma advanceMetrics_initialCash {B : Binary64 F} {prior : Option (StrategyMetricState F)}
    {initialCash : ℚ} {batch : MetricBatch F} {state : StrategyMetricState F}
    (h : advanceMetrics B prior initialCash batch = .ok state) : state.initialCash = initialCash := by
  unfold advanceMetrics advanceStrategyMetricState at h
  simp only [mapError_ok_iff, bind_ok_iff, pure_ok_iff] at h
  obtain ⟨-, -, observed, -, -, -, rfl⟩ := h
  rfl

/-- A completed chunk, taken apart. -/
lemma runChunk_ok {progress : Progress F S D} {sessions : List Session}
    {part : ReportPart F S E D} (h : runChunk plan progress sessions = .ok part) :
    ∃ last metricState state records, sessions.getLast? = some last
      ∧ runReport plan.simulation progress.completed progress.boundary sessions progress.state
          = .ok (state, records)
      ∧ part.progress.state = state
      ∧ part.progress.resumed = some (last, metricState)
      ∧ part.progress.completed = progress.completed + sessions.length
      ∧ metricState.initialCash = plan.simulation.initialCash
      ∧ part.records = records := by
  unfold runChunk at h
  simp only [bind_ok_iff, found_ok_iff, pure_ok_iff, Prod.exists] at h
  obtain ⟨last, hlast, state, records, hrun, metricState, hmetric, rfl⟩ := h
  exact ⟨last, metricState, state, records, hlast, hrun, rfl, rfl, rfl,
    advanceMetrics_initialCash hmetric, rfl⟩

lemma runChunk_sound {progress : Progress F S D} {sessions : List Session}
    {part : ReportPart F S E D} (hsound : progress.Sound plan.simulation)
    (hfollows : Follows progress sessions) (h : runChunk plan progress sessions = .ok part) :
    part.progress.Sound plan.simulation := by
  obtain ⟨last, metricState, state, records, hlast, hrun, hstate, hresumed, hcompleted, hcash,
    -⟩ := runChunk_ok h
  obtain ⟨record, -, hleft⟩ := runReport_left hfollows.sorted (hfollows.started hsound) hlast hrun
  have hpos : 0 < sessions.length := by
    cases sessions with
    | nil => cases hlast
    | cons _ _ => exact Nat.succ_pos _
  unfold Progress.Sound
  rw [hresumed]
  refine ⟨hcash, by omega, record, ?_⟩
  rw [hstate]
  exact hleft

lemma runChunk_boundary {progress : Progress F S D} {sessions : List Session}
    {part : ReportPart F S E D} (h : runChunk plan progress sessions = .ok part) :
    part.progress.boundary = sessions.getLast? := by
  obtain ⟨last, metricState, state, records, hlast, -, -, hresumed, -⟩ := runChunk_ok h
  unfold Progress.boundary
  rw [hresumed, hlast]
  rfl

/-! ### Consecutive parts -/

lemma records_ne_nil {sessions : List Session} {records : List (SessionRecord F E)}
    (h : records.map (fun record => record.daily.session) = sessions) (hne : sessions ≠ []) :
    records ≠ [] := by
  rintro rfl
  exact hne h.symm

/-- Rows of two parts see their own rejections only. -/
lemma strategyObservations_parts (R : Rounding) (cost : ℚ) {first rest : List Session} {cost' : ℚ}
    {records later : List (SessionRecord F E)} (hsorted : (first ++ rest).Pairwise (· < ·))
    (hrecords : records.map (fun record => record.daily.session) = first)
    (hrejected : ∀ record ∈ records, record.journal.RejectedAt record.daily.session)
    (hlater : later.map (fun record => record.daily.session) = rest)
    (hrejected' : ∀ record ∈ later, record.journal.RejectedAt record.daily.session)
    (hcost : (records.map SessionRecord.daily).getLast?.map
      DailyObservation.cumulativeTransactionCost = some cost') :
    strategyObservations R ((records ++ later).flatMap fun record => record.journal.rejections)
        cost ((records ++ later).map SessionRecord.daily)
      = strategyObservations R (records.flatMap fun record => record.journal.rejections) cost
          (records.map SessionRecord.daily)
        ++ strategyObservations R (later.flatMap fun record => record.journal.rejections) cost'
          (later.map SessionRecord.daily) := by
  have hlt := (List.pairwise_append.mp hsorted).2.2
  rw [List.map_append, List.flatMap_append, strategyObservations_append, hcost, Option.getD_some]
  congr 1
  · apply strategyObservations_congr
    intro row hrow
    obtain ⟨record, hrecord, rfl⟩ := List.mem_map.mp hrow
    have hmem : record.daily.session ∈ first := hrecords ▸ List.mem_map_of_mem hrecord
    have hnotMem : record.daily.session ∉ later.map fun record => record.daily.session := by
      rw [hlater]
      intro hrest
      exact lt_irrefl _ (hlt _ hmem _ hrest)
    rw [List.filter_append, filter_rejections_eq_nil hrejected' hnotMem, List.append_nil]
  · apply strategyObservations_congr
    intro row hrow
    obtain ⟨record, hrecord, rfl⟩ := List.mem_map.mp hrow
    have hmem : record.daily.session ∈ rest := hlater ▸ List.mem_map_of_mem hrecord
    have hnotMem : record.daily.session ∉ records.map fun record => record.daily.session := by
      rw [hrecords]
      intro hfirst
      exact lt_irrefl _ (hlt _ hfirst _ hmem)
    rw [List.filter_append, filter_rejections_eq_nil hrejected hnotMem, List.nil_append]

/-- The part over two lists of sessions is the part over the first and then over the second. -/
theorem runChunk_append {progress : Progress F S D} {first rest : List Session}
    (hsound : progress.Sound plan.simulation) (hfollows : Follows progress (first ++ rest))
    (hfirst : first ≠ []) (hrest : rest ≠ []) :
    Mirrors id
      (do
        let part ← runChunk plan progress first
        let later ← runChunk plan part.progress rest
        return (⟨later.progress, part.observations ++ later.observations,
          part.records ++ later.records⟩ : ReportPart F S E D))
      (runChunk plan progress (first ++ rest)) := by
  have hstarted := hfollows.started hsound
  obtain ⟨final, hfinal⟩ := Option.isSome_iff_exists.mp (List.getLast?_isSome.mpr hrest)
  obtain ⟨middle, hmiddle⟩ := Option.isSome_iff_exists.mp (List.getLast?_isSome.mpr hfirst)
  have hlast : (first ++ rest).getLast? = some final := by
    rw [List.getLast?_append, hfinal]
    rfl
  have hsorted := List.pairwise_append.mp hfollows.sorted
  have hstartedFirst : ∀ session ∈ first, StartedBy session progress.state.account.positions :=
    fun session hmem => hstarted session (List.mem_append_left _ hmem)
  unfold runChunk
  simp only [hlast, hfinal, hmiddle, found, ok_bind, runReport_append, bind_assoc, pure_bind]
  cases hrun : runReport plan.simulation progress.completed progress.boundary first
      progress.state with
  | error e => exact .rollback e e
  | ok result =>
    obtain ⟨state, records⟩ := result
    obtain ⟨hrecords, hrejected⟩ := runReport_records hsorted.1 hstartedFirst hrun
    have hcost := runReport_cost hsorted.1 hstartedFirst hmiddle hrun
    obtain ⟨record, -, hleft⟩ := runReport_left hsorted.1 hstartedFirst hmiddle hrun
    have hstartedRest : ∀ session ∈ rest, StartedBy session state.account.positions := by
      intro session hmem
      exact hleft.started.mono
        (hsorted.2.2 middle (List.mem_of_getLast? hmiddle) session hmem).le
    have hboundary : lastOf progress.boundary first = some middle := by
      unfold lastOf
      rw [hmiddle]
      rfl
    simp only [ok_bind, Progress.boundary, Option.map_some] at hboundary ⊢
    simp only [hboundary,
      advanceMetrics_append state.account.cumulativeCost (records_ne_nil hrecords hfirst)]
    cases hmetric : advanceMetrics plan.simulation.floats (progress.resumed.map Prod.snd)
        plan.simulation.initialCash (metricBatch records state.account.cumulativeCost) with
    | error e =>
      simp only [bind, Except.bind]
      cases runReport plan.simulation (progress.completed + first.length) (some middle) rest
          state with
      | error e' => exact .rollback e e'
      | ok later => exact .rollback e e
    | ok metricState =>
      simp only [ok_bind]
      cases hlater : runReport plan.simulation (progress.completed + first.length) (some middle)
          rest state with
      | error e => exact .rollback e e
      | ok result =>
        obtain ⟨last, later⟩ := result
        obtain ⟨hrecords', hrejected'⟩ := runReport_records hsorted.2.1 hstartedRest hlater
        have hobservations := strategyObservations_parts plan.simulation.rounding
          progress.state.account.cumulativeCost hfollows.sorted hrecords hrejected
          hrecords' hrejected' hcost
        simp only [ok_bind]
        cases hmetric' : advanceMetrics plan.simulation.floats (some metricState)
            plan.simulation.initialCash (metricBatch later last.account.cumulativeCost) with
        | error e => exact .rollback e e
        | ok final =>
          simp only [ok_bind, hobservations, List.foldl_append, List.length_append, Nat.add_assoc]
          exact .commit _

/-- Parts over consecutive chunks make up the part over all their sessions. -/
theorem runChunks_flatten {chunks : List (List Session)} {progress : Progress F S D}
    (hsound : progress.Sound plan.simulation) (hfollows : Follows progress chunks.flatten)
    (hchunks : chunks ≠ []) (hne : ∀ chunk ∈ chunks, chunk ≠ []) :
    Mirrors id (runChunks plan chunks progress) (runChunk plan progress chunks.flatten) := by
  induction chunks generalizing progress with
  | nil => exact absurd rfl hchunks
  | cons chunk rest ih =>
    have hchunk := hne chunk List.mem_cons_self
    unfold runChunks
    cases hrest : rest with
    | nil =>
      apply Mirrors.of_eq
      simp only [List.flatten_cons, List.flatten_nil, List.append_nil, runChunks, pure_bind]
      cases runChunk plan progress chunk <;> rfl
    | cons second others =>
      rw [← hrest]
      have hrestNe : rest ≠ [] := by rw [hrest]; exact List.cons_ne_nil _ _
      have hflatten : rest.flatten ≠ [] := by
        rw [hrest, List.flatten_cons]
        have hsecond := hne second (by rw [hrest]; simp)
        exact List.append_ne_nil_of_left_ne_nil hsecond _
      rw [List.flatten_cons] at hfollows ⊢
      have happend := runChunk_append hsound hfollows hchunk hflatten
      refine Mirrors.trans_id ?_ happend
      apply Mirrors.step
      intro part hpart
      have hpartSound := by
        refine runChunk_sound hsound ⟨(List.pairwise_append.mp hfollows.sorted).1, ?_⟩ hpart
        intro session hmem
        exact hfollows.later session (List.mem_append_left _ hmem)
      have hpartFollows : Follows part.progress rest.flatten := by
        refine ⟨(List.pairwise_append.mp hfollows.sorted).2.1, ?_⟩
        intro session hmem last hlast
        rw [runChunk_boundary hpart] at hlast
        exact (List.pairwise_append.mp hfollows.sorted).2.2 last (List.mem_of_getLast? hlast)
          session hmem
      have hlater := ih hpartSound hpartFollows hrestNe
        fun chunk' hmem => hne chunk' (List.mem_cons_of_mem _ hmem)
      apply hlater.bind
      intro later _
      exact .commit _

/-! ### The calendar slice of a chunk -/

/-- The context of a chunk: the sessions that its data slice resolves before it. -/
def contextOf (plan : ChunkPlan F S E D) (before : List Session) : List Session :=
  before.drop (before.length - plan.contextCount)

lemma contextSessions_eq {before sessions after : List Session} {first last : Session}
    (hnodup : plan.calendar.Nodup) (hcalendar : plan.calendar = before ++ (sessions ++ after))
    (hfirst : sessions.head? = some first) (hlast : sessions.getLast? = some last) :
    contextSessions plan.calendar plan.contextCount first last
      = contextOf plan before ++ sessions := by
  have hne : sessions ≠ [] := by
    rintro rfl
    cases hfirst
  have hlength : 0 < sessions.length := List.length_pos_of_ne_nil hne
  have hidx : ∀ index session, sessions[index]? = some session →
      plan.calendar.idxOf session = before.length + index := by
    intro index session hget
    obtain ⟨hlt, heq⟩ := List.getElem?_eq_some_iff.mp hget
    have hget' : plan.calendar[before.length + index]? = some session := by
      rw [hcalendar, List.getElem?_append_right (Nat.le_add_right _ _), Nat.add_sub_cancel_left,
        List.getElem?_append_left hlt, hget]
    obtain ⟨hlt', heq'⟩ := List.getElem?_eq_some_iff.mp hget'
    rw [← heq', hnodup.idxOf_getElem]
  have hfirstIdx : plan.calendar.idxOf first = before.length := by
    rw [hidx 0 first (by rw [← hfirst, List.head?_eq_getElem?]), Nat.add_zero]
  have hlastIdx : plan.calendar.idxOf last + 1 = (before ++ sessions).length := by
    rw [hidx (sessions.length - 1) last (by rw [← hlast, List.getLast?_eq_getElem?]),
      List.length_append]
    omega
  unfold contextSessions contextOf
  rw [hlastIdx, hfirstIdx, hcalendar, ← List.append_assoc, List.take_left,
    List.drop_append_of_le_length (Nat.sub_le _ _)]

lemma contextCount_pos (plan : ChunkPlan F S E D) : 0 < plan.contextCount := by
  unfold ChunkPlan.contextCount
  omega

lemma contextOf_getLast? (before : List Session) :
    (contextOf plan before).getLast? = before.getLast? := by
  have hpos := contextCount_pos plan
  cases hbefore : before.getLast? with
  | none =>
    unfold contextOf
    rw [List.getLast?_eq_none_iff.mp hbefore, List.drop_nil]
    rfl
  | some last =>
    have hlength : 0 < before.length :=
      List.length_pos_of_mem (List.mem_of_getLast? hbefore)
    unfold contextOf
    rw [List.getLast?_drop, if_neg (by omega), hbefore]

/-! ### Starting from a continuation -/

/-- Where the sessions of a chunk stand in the calendar: after the sessions before the report
and the ones that have been executed. -/
structure Placed (plan : ChunkPlan F S E D) (progress : Progress F S D)
    (sessions : List Session) : Prop where
  calendar : ∃ before done after, plan.calendar = (before ++ done) ++ (sessions ++ after)
    ∧ done.length = progress.completed ∧ done.getLast? = progress.boundary
    ∧ (done ++ sessions).head? = some plan.originSession

lemma reorder_none (positions : Positions) : reorder none positions = positions :=
  OrderedMap.sortedFront_of_forall_not fun _ _ => rfl

/-- Restoring the projected continuation sorts the holdings of earlier sessions. -/
lemma restoreState_reorder {state : StrategyState F S} {last : Session}
    {record : SessionRecord F E} (h : LeftBy last state record) :
    restoreState (payloadRows state.account.positions) record.daily state.pendingTarget
        state.decisionState
      = state.reorder (some last) := by
  obtain ⟨rows, hrows⟩ := h.payload
  have hpayload : payloadRows state.account.positions = rows := by
    unfold payloadRows
    rw [hrows]
  have hsorted : reorder (some last) state.account.positions
      = OrderedMap.sorted state.account.positions := by
    apply OrderedMap.sortedFront_of_forall
    intro e he
    exact decide_eq_true (h.started e.1 e.2 (OrderedMap.lookup_eq_some_iff.mpr he))
  have haccount := restoreState_account h.booked h.lastDaily hrows state.pendingTarget
    state.decisionState
  rw [hpayload]
  unfold StrategyState.reorder Account.reorder
  rw [hsorted, ← haccount]
  unfold restoreState
  rw [← h.lastDaily]

/-- A chunk starts where the uninterrupted execution stands, with the older holdings sorted. -/
lemma startExecution_project {progress : Progress F S D} {sessions before done after : List Session}
    (hsound : progress.Sound plan.simulation) (hnodup : plan.calendar.Nodup)
    (hne : sessions ≠ [])
    (hcalendar : plan.calendar = (before ++ done) ++ (sessions ++ after))
    (hlength : done.length = progress.completed) (hlast : done.getLast? = progress.boundary)
    (horigin : (done ++ sessions).head? = some plan.originSession) :
    startExecution plan.simulation (contextOf plan (before ++ done) ++ sessions)
        plan.originSession progress.project.strategyState
      = .ok ⟨(contextOf plan (before ++ done)).length,
          (contextOf plan (before ++ done)).length - progress.completed,
          progress.state.reorder progress.boundary, progress.resumed.map Prod.snd⟩ := by
  have hsub : (contextOf plan (before ++ done) ++ sessions).Sublist plan.calendar := by
    rw [hcalendar]
    exact (List.drop_sublist _ _).append (List.sublist_append_left _ _)
  have hnodupSlice := hnodup.sublist hsub
  have hdisjoint := (List.nodup_append.mp hnodupSlice).2.2
  unfold startExecution Progress.project
  unfold Progress.Sound at hsound
  cases hresumed : progress.resumed with
  | none =>
    rw [hresumed] at hsound
    obtain ⟨hstate, hcompleted⟩ := hsound
    have hdone : done = [] := List.eq_nil_of_length_eq_zero (hlength.trans hcompleted)
    have hboundary : progress.boundary = none := by
      unfold Progress.boundary
      rw [hresumed]
      rfl
    obtain ⟨first, rest, rfl⟩ := List.exists_cons_of_ne_nil hne
    have hfirst : first = plan.originSession := by
      rw [hdone] at horigin
      exact Option.some.inj horigin
    have hmem : plan.originSession ∈ contextOf plan (before ++ done) ++ first :: rest := by
      rw [← hfirst]
      simp
    have hnotMem : plan.originSession ∉ contextOf plan (before ++ done) := by
      intro hcontext
      exact hdisjoint _ hcontext first List.mem_cons_self hfirst.symm
    have hidx : (contextOf plan (before ++ done) ++ first :: rest).idxOf plan.originSession
        = (contextOf plan (before ++ done)).length := by
      rw [List.idxOf_append_of_notMem hnotMem, ← hfirst, List.idxOf_cons_self, Nat.add_zero]
    have hreorder : progress.state.reorder none = initialState plan.simulation := by
      rw [hstate]
      unfold StrategyState.reorder Account.reorder
      rw [reorder_none]
    simp only [Option.map_none, require, hmem, if_true, hidx, hboundary, hreorder, hcompleted,
      Nat.cast_zero, sub_zero]
    rfl
  | some resumed =>
    obtain ⟨last, metricState⟩ := resumed
    rw [hresumed] at hsound
    obtain ⟨record, hleft⟩ := hsound.left
    have hboundary : progress.boundary = some last := by
      unfold Progress.boundary
      rw [hresumed]
      rfl
    have hcontextLast : (contextOf plan (before ++ done)).getLast? = some last := by
      rw [contextOf_getLast?, List.getLast?_append, hlast, hboundary]
      rfl
    obtain ⟨context, hcontext⟩ := List.getLast?_eq_some_iff.mp hcontextLast
    rw [hcontext] at hnodupSlice ⊢
    have hnotMem : last ∉ context := by
      have hcontextNodup := (List.nodup_append.mp hnodupSlice).1
      intro hmem
      exact (List.nodup_append.mp hcontextNodup).2.2 last hmem last List.mem_cons_self rfl
    have hidx : (context ++ [last] ++ sessions).idxOf last = context.length := by
      rw [List.append_assoc, List.idxOf_append_of_notMem hnotMem, List.singleton_append,
        List.idxOf_cons_self, Nat.add_zero]
    have hmem : last ∈ context ++ [last] ++ sessions := by simp
    have hpos := hsound.completed_pos
    have hrestored := restoreState_reorder hleft
    simp only [Option.map_some, hleft.lastDaily, Option.toList_some, List.getLast?_singleton,
      found, ok_bind, hleft.session_eq, require, hmem, if_true, List.length_singleton,
      hidx, hsound.initialCash, hrestored, hboundary, List.length_append,
      Nat.one_le_iff_ne_zero, hpos.ne', ne_eq, not_false_eq_true]
    rfl

/-! ### Chunks that keep the order -/

/-- No session of a chunk reads the order of the positions. -/
def SessionsInOrder (sim : Simulation F S E) (boundary : Option Session) :
    ℕ → Option Session → List Session → StrategyState F S → Prop
  | _, _, [], _ => True
  | reportIndex, signal, session :: rest, state =>
    SessionInOrder sim boundary session state
      ∧ ∀ next record, runSession sim signal reportIndex state session = .ok (next, record) →
        SessionsInOrder sim boundary (reportIndex + 1) (some session) rest next

/-- No chunk of an execution reads the order that its continuation did not keep. -/
def ChunksInOrder (plan : ChunkPlan F S E D) : List (List Session) → Progress F S D → Prop
  | [], _ => True
  | sessions :: rest, progress =>
    SessionsInOrder plan.simulation progress.boundary progress.completed progress.boundary sessions
        progress.state
      ∧ ∀ part, runChunk plan progress sessions = .ok part → ChunksInOrder plan rest part.progress

lemma sessionInOrder_none {session : Session} {state : StrategyState F S} :
    SessionInOrder sim none session state := by
  constructor
  · unfold CarriedInOrder
    rw [reorder_none]
  · intro target _ opened _ _
    rw [reorder_none]

/-- Before the first boundary there is nothing to keep. -/
lemma sessionsInOrder_none {reportIndex : ℕ} {signal : Option Session} {sessions : List Session}
    {state : StrategyState F S} : SessionsInOrder sim none reportIndex signal sessions state := by
  induction sessions generalizing reportIndex signal state with
  | nil => trivial
  | cons session rest ih => exact ⟨sessionInOrder_none, fun _ _ _ => ih⟩

lemma runReport_reorder (hcanonical : sim.floats.Canonical) {boundary : Option Session}
    {reportIndex : ℕ} {signal : Option Session} {sessions : List Session}
    {state : StrategyState F S} (hafter : ∀ session ∈ sessions, After boundary session)
    (horder : SessionsInOrder sim boundary reportIndex signal sessions state) :
    Mirrors (fun result : StrategyState F S × List (SessionRecord F E) =>
        (result.1.reorder boundary, result.2))
      (runReport sim reportIndex signal sessions state)
      (runReport sim reportIndex signal sessions (state.reorder boundary)) := by
  induction sessions generalizing reportIndex signal state with
  | nil => exact .commit (state, [])
  | cons session rest ih =>
    obtain ⟨hsession, hrest⟩ := horder
    unfold runReport
    apply (runSession_reorder hcanonical (hafter session List.mem_cons_self) hsession).bind
    rintro ⟨next, record⟩ hrun
    have hlater := ih (fun session' hmem => hafter session' (List.mem_cons_of_mem _ hmem))
      (hrest next record hrun)
    apply hlater.bind
    rintro ⟨last, records⟩ -
    exact .commit (last, record :: records)

lemma priorCost_project {progress : Progress F S D} (hsound : progress.Sound sim) :
    priorCost progress.project = .ok progress.state.account.cumulativeCost := by
  unfold Progress.Sound at hsound
  unfold priorCost Progress.project
  cases hresumed : progress.resumed with
  | none =>
    rw [hresumed] at hsound
    obtain ⟨hstate, -⟩ := hsound
    rw [hstate]
    rfl
  | some resumed =>
    rw [hresumed] at hsound
    obtain ⟨record, hleft⟩ := hsound.left
    have hcost := (hleft.booked record.daily hleft.lastDaily).2.2
    simp only [Option.map_some, hleft.lastDaily, Option.toList_some, hcost]

lemma runReport_signal {signal signal' : Option Session} {reportIndex : ℕ}
    {sessions : List Session} {state : StrategyState F S} (h : state.pendingTarget = none) :
    runReport sim reportIndex signal sessions state
      = runReport sim reportIndex signal' sessions state := by
  cases sessions with
  | nil => rfl
  | cons session rest =>
    unfold runReport
    rw [runSession_signal h]

/-- An execution that has not completed a session has no pending target. -/
lemma Progress.Sound.pendingTarget {progress : Progress F S D} (hsound : progress.Sound sim)
    (hcompleted : progress.completed = 0) : progress.state.pendingTarget = none := by
  unfold Progress.Sound at hsound
  cases hresumed : progress.resumed with
  | none =>
    rw [hresumed] at hsound
    rw [hsound.1]
    rfl
  | some resumed =>
    rw [hresumed] at hsound
    have hpos := hsound.completed_pos
    omega

/-- The session loop of a chunk over its slice is the report loop over its sessions. -/
lemma runSessions_slice {progress : Progress F S D} {sessions before done after : List Session}
    (hsound : progress.Sound plan.simulation) (hnodup : plan.calendar.Nodup)
    (hcalendar : plan.calendar = (before ++ done) ++ (sessions ++ after))
    (hlength : done.length = progress.completed) (hdone : done.getLast? = progress.boundary) :
    runSessions plan.simulation (contextOf plan (before ++ done) ++ sessions)
        ((contextOf plan (before ++ done)).length - progress.completed) sessions
        (progress.state.reorder progress.boundary)
      = runReport plan.simulation progress.completed progress.boundary sessions
          (progress.state.reorder progress.boundary) := by
  have hslice : (contextOf plan (before ++ done) ++ sessions).Nodup := by
    apply List.Nodup.sublist _ hnodup
    rw [hcalendar]
    exact (List.drop_sublist _ _).append (List.sublist_append_left _ _)
  have hlast : (contextOf plan (before ++ done)).getLast? = (before ++ done).getLast? :=
    contextOf_getLast? _
  have hindex : ((contextOf plan (before ++ done)).length : ℤ)
      - ((contextOf plan (before ++ done)).length - progress.completed)
      = progress.completed := by omega
  by_cases hempty : done = []
  · have hpending : (progress.state.reorder progress.boundary).pendingTarget = none := by
      apply hsound.pendingTarget
      rw [← hlength, hempty]
      rfl
    rw [runSessions_eq hslice rfl hindex (.inr hpending)]
    exact runReport_signal hpending
  · obtain ⟨last, hdoneLast⟩ := Option.isSome_iff_exists.mp (List.getLast?_isSome.mpr hempty)
    have hcontext : (contextOf plan (before ++ done)).getLast? = progress.boundary := by
      rw [hlast, List.getLast?_append, hdoneLast, ← hdone, hdoneLast]
      rfl
    have hcontextNe : contextOf plan (before ++ done) ≠ [] := by
      intro hnil
      rw [hnil, ← hdone, hdoneLast] at hcontext
      cases hcontext
    rw [runSessions_eq hslice rfl hindex (.inl hcontextNe), hcontext]

/-- A chunk that starts from the projected continuation does what the uninterrupted execution
does over its sessions. -/
theorem executeChunk_mirrors (hcanonical : plan.simulation.floats.Canonical)
    {progress : Progress F S D} {sessions : List Session}
    (hsorted : plan.calendar.Pairwise (· < ·)) (hsound : progress.Sound plan.simulation)
    (hfollows : Follows progress sessions) (hplaced : Placed plan progress sessions)
    (horder : SessionsInOrder plan.simulation progress.boundary progress.completed
      progress.boundary sessions progress.state) :
    Mirrors ReportPart.outcome (runChunk plan progress sessions)
      (executeChunk plan progress.project sessions) := by
  by_cases hne : sessions = []
  · subst hne
    exact .rollback _ _
  obtain ⟨last, hlast⟩ := Option.isSome_iff_exists.mp (List.getLast?_isSome.mpr hne)
  obtain ⟨first, rest, hcons⟩ := List.exists_cons_of_ne_nil hne
  have hfirst : sessions.head? = some first := by
    rw [hcons]
    rfl
  obtain ⟨before, done, after, hcalendar, hlength, hdone, horigin⟩ := hplaced.calendar
  have hnodup : plan.calendar.Nodup := hsorted.imp fun hlt => ne_of_lt hlt
  have hslice := contextSessions_eq hnodup hcalendar hfirst hlast
  have hstart := startExecution_project hsound hnodup hne hcalendar hlength hdone horigin
  have hloop := runSessions_slice hsound hnodup hcalendar hlength hdone
  have hreport := runReport_reorder hcanonical hfollows.later horder
  unfold executeChunk runChunk executeStrategy
  simp only [hfirst, hlast, found, ok_bind, priorCost_project hsound, hslice, hstart,
    List.drop_left, hloop, bind_assoc]
  cases hrun : runReport plan.simulation progress.completed progress.boundary sessions
      progress.state with
  | error e =>
    rw [hrun] at hreport
    generalize runReport plan.simulation progress.completed progress.boundary sessions
      (progress.state.reorder progress.boundary) = result at hreport ⊢
    cases hreport with
    | rollback _ e' => exact .rollback e e'
  | ok result =>
    obtain ⟨state, records⟩ := result
    rw [hreport.ok hrun]
    obtain ⟨record, -, hleft⟩ :=
      runReport_left hfollows.sorted (hfollows.started hsound) hlast hrun
    have hpayload : positionPayload (reorder progress.boundary state.account.positions)
        = .ok (payloadRows state.account.positions) := by
      obtain ⟨rows, hrows⟩ := hleft.payload
      unfold payloadRows
      rw [positionPayload_reorder, hrows]
    simp only [ok_bind, StrategyState.reorder, Account.reorder, hpayload]
    cases advanceMetrics plan.simulation.floats (progress.resumed.map Prod.snd)
        plan.simulation.initialCash (metricBatch records state.account.cumulativeCost) with
    | error e => exact .rollback e e
    | ok metricState =>
      exact .commit (ReportPart.mk (Progress.mk state (some (last, metricState)) _ _) _ records)

/-- Chunks that keep the order do what the uninterrupted execution does. -/
theorem executeChunks_mirrors (hcanonical : plan.simulation.floats.Canonical)
    {chunks : List (List Session)} {progress : Progress F S D}
    (hsorted : plan.calendar.Pairwise (· < ·)) (hsound : progress.Sound plan.simulation)
    (hfollows : Follows progress chunks.flatten) (hplaced : Placed plan progress chunks.flatten)
    (horder : ChunksInOrder plan chunks progress) :
    Mirrors ReportPart.outcome (runChunks plan chunks progress)
      (executeChunks plan chunks progress.project) := by
  induction chunks generalizing progress with
  | nil => exact .commit (ReportPart.mk progress [] [])
  | cons sessions rest ih =>
    obtain ⟨hsessions, hrest⟩ := horder
    rw [List.flatten_cons] at hfollows hplaced
    obtain ⟨hsortedFirst, hsortedRest, hlt⟩ := List.pairwise_append.mp hfollows.sorted
    have hfollowsFirst : Follows progress sessions :=
      ⟨hsortedFirst, fun session hmem => hfollows.later session (List.mem_append_left _ hmem)⟩
    by_cases hne : sessions = []
    · subst hne
      exact .rollback _ _
    have hplacedFirst : Placed plan progress sessions := by
      obtain ⟨before, done, after, hcalendar, hlength, hdone, horigin⟩ := hplaced.calendar
      refine ⟨before, done, rest.flatten ++ after, ?_, hlength, hdone, ?_⟩
      · rw [hcalendar]
        simp only [List.append_assoc]
      · obtain ⟨first, others, rfl⟩ := List.exists_cons_of_ne_nil hne
        rw [← horigin]
        cases done <;> rfl
    unfold runChunks executeChunks
    apply (executeChunk_mirrors hcanonical hsorted hsound hfollowsFirst hplacedFirst
      hsessions).bind
    intro part hpart
    obtain ⟨last, metricState, state, records, hlast, -, -, -, hcompleted, -⟩ := runChunk_ok hpart
    have hfollowsRest : Follows part.progress rest.flatten := by
      refine ⟨hsortedRest, ?_⟩
      intro session hmem last' hlast'
      rw [runChunk_boundary hpart] at hlast'
      exact hlt last' (List.mem_of_getLast? hlast') session hmem
    have hplacedRest : Placed plan part.progress rest.flatten := by
      obtain ⟨before, done, after, hcalendar, hlength, hdone, horigin⟩ := hplaced.calendar
      refine ⟨before, done ++ sessions, after, ?_, ?_, ?_, ?_⟩
      · rw [hcalendar]
        simp only [List.append_assoc]
      · rw [List.length_append, hlength, hcompleted]
      · rw [List.getLast?_append, hlast, runChunk_boundary hpart, hlast]
        rfl
      · rw [← horigin, List.append_assoc]
    have hlater := ih (runChunk_sound hsound hfollowsFirst hpart) hfollowsRest hplacedRest
      (hrest part hpart)
    apply hlater.bind
    intro later _
    exact .commit (ReportPart.mk later.progress _ _)

/-! ### Invariance -/

/-- A report is the part of a sorted calendar that starts at the origin session. -/
structure ReportOf (plan : ChunkPlan F S E D) (report : List Session) : Prop where
  sorted : plan.calendar.Pairwise (· < ·)
  placed : ∃ before after, plan.calendar = before ++ (report ++ after)
  origin : report.head? = some plan.originSession

/-- The state of a Run before its first chunk. -/
def ChunkState.initial : ChunkState F S D := ⟨none, none, 0⟩

/-- Chunks of a report publish, chunk after chunk, what one execution over the whole report
publishes, as long as no session after a boundary reads the order of older positions. -/
theorem chunk_invariance (hcanonical : plan.simulation.floats.Canonical)
    {chunks : List (List Session)} (hreport : ReportOf plan chunks.flatten)
    (hne : ∀ chunk ∈ chunks, chunk ≠ [])
    (horder : ChunksInOrder plan chunks (Progress.start plan.simulation))
    (outcome : ChunkOutcome F S E D) :
    executeChunks plan chunks ChunkState.initial = .ok outcome
      ↔ executeChunks plan [chunks.flatten] ChunkState.initial = .ok outcome := by
  obtain ⟨before, after, hcalendar⟩ := hreport.placed
  have hsound : (Progress.start plan.simulation : Progress F S D).Sound plan.simulation :=
    Progress.start_sound
  have hflatten : chunks.flatten ≠ [] := by
    intro hnil
    have horigin := hreport.origin
    rw [hnil] at horigin
    cases horigin
  have hchunks : chunks ≠ [] := by
    rintro rfl
    exact hflatten rfl
  have hfollows : Follows (Progress.start plan.simulation : Progress F S D) chunks.flatten := by
    refine ⟨?_, fun _ _ _ hlast => nomatch hlast⟩
    have hsorted := hreport.sorted
    rw [hcalendar] at hsorted
    exact (List.pairwise_append.mp (List.pairwise_append.mp hsorted).2.1).1
  have hplaced : Placed plan (Progress.start plan.simulation : Progress F S D) chunks.flatten :=
    ⟨before, [], after, by rw [List.append_nil, hcalendar], rfl, rfl, hreport.origin⟩
  have hwhole : [chunks.flatten].flatten = chunks.flatten := List.flatten_singleton
  have hchunked := executeChunks_mirrors hcanonical hreport.sorted hsound hfollows hplaced horder
  have honeOrder : ChunksInOrder plan [chunks.flatten] (Progress.start plan.simulation) :=
    ⟨sessionsInOrder_none, fun _ _ => trivial⟩
  have hsingle := executeChunks_mirrors hcanonical hreport.sorted hsound (by rwa [hwhole])
    (by rwa [hwhole]) honeOrder
  have hparts := runChunks_flatten hsound hfollows hchunks hne
  have hone : Mirrors id (runChunks plan [chunks.flatten] (Progress.start plan.simulation))
      (runChunk plan (Progress.start plan.simulation) chunks.flatten) := by
    have hflattenNe : ∀ chunk ∈ [chunks.flatten], chunk ≠ [] := by simpa using hflatten
    have h := runChunks_flatten hsound (by rwa [hwhole]) (List.cons_ne_nil _ _) hflattenNe
    rwa [hwhole] at h
  change executeChunks plan chunks (Progress.start plan.simulation).project = _
    ↔ executeChunks plan [chunks.flatten] (Progress.start plan.simulation).project = _
  rw [hchunked.ok_iff, hsingle.ok_iff]
  have hsame : ∀ part, runChunks plan chunks (Progress.start plan.simulation) = .ok part
      ↔ runChunks plan [chunks.flatten] (Progress.start plan.simulation) = .ok part := by
    intro part
    have h := hparts.ok_iff (c := part)
    have h' := hone.ok_iff (c := part)
    simp only [id, exists_eq_right] at h h'
    rw [← h, h']
  simp only [hsame]

/-! ### Executions without carried holdings -/

/-- Every instrument has an Open in every session. -/
def MarketData.AlwaysOpen (data : MarketData) : Prop :=
  ∀ session id, (data.executionPrices session id).isSome = true

/-- No decision caps the stock exposure. -/
def Simulation.Uncapped (sim : Simulation F S E) : Prop :=
  ∀ session reportIndex observation fills rejections state decision,
    sim.decide session reportIndex observation fills rejections state = .ok decision →
      ∀ target ∈ decision.target, target.maximumStockExposure = none

def StrategyState.Uncapped (state : StrategyState F S) : Prop :=
  ∀ target ∈ state.pendingTarget, target.maximumStockExposure = none

lemma runSession_uncapped {signal : Option Session} {reportIndex : ℤ} {session : Session}
    {state next : StrategyState F S} {record : SessionRecord F E} (hsim : sim.Uncapped)
    (h : runSession sim signal reportIndex state session = .ok (next, record)) :
    next.Uncapped := by
  obtain ⟨opened, traded, -, -, -, hclose⟩ := runSession_ok h
  obtain ⟨observation, decision, hdecide, htarget, -⟩ := closeSession_target hclose
  intro target hmem
  rw [htarget] at hmem
  exact hsim _ _ _ _ _ _ _ hdecide target hmem

lemma sessionsInOrder_of_alwaysOpen (hopen : sim.data.AlwaysOpen) (hsim : sim.Uncapped)
    {boundary signal : Option Session} {reportIndex : ℕ} {sessions : List Session}
    {state : StrategyState F S} (hstate : state.Uncapped) :
    SessionsInOrder sim boundary reportIndex signal sessions state := by
  induction sessions generalizing reportIndex signal state with
  | nil => trivial
  | cons session rest ih =>
    refine ⟨⟨?_, ?_⟩, ?_⟩
    · have hpriced : ∀ positions : Positions,
          unpricedEntries sim.data session positions = [] := by
        intro positions
        unfold unpricedEntries unpriced
        rw [List.filter_eq_nil_iff]
        intro e _
        have hsome := hopen session e.1
        cases hprice : sim.data.executionPrices session e.1 with
        | none =>
          rw [hprice] at hsome
          cases hsome
        | some price => simp
      unfold CarriedInOrder
      rw [hpriced, hpriced]
    · intro target htarget opened _ hcapped
      rw [hstate target htarget] at hcapped
      cases hcapped
    · intro next record hrun
      exact ih (runSession_uncapped hsim hrun)

lemma runReport_uncapped {reportIndex : ℕ} {signal : Option Session} {sessions : List Session}
    {state last : StrategyState F S} {records : List (SessionRecord F E)} (hsim : sim.Uncapped)
    (hstate : state.Uncapped)
    (h : runReport sim reportIndex signal sessions state = .ok (last, records)) :
    last.Uncapped := by
  induction sessions generalizing reportIndex signal state records with
  | nil =>
    cases h
    exact hstate
  | cons session rest ih =>
    unfold runReport at h
    simp only [bind_ok_iff, pure_ok_iff, Prod.exists, Prod.mk.injEq] at h
    obtain ⟨next, record, hrun, last', later, hlater, rfl, -⟩ := h
    exact ih (runSession_uncapped hsim hrun) hlater

/-- When every holding always has an Open and no target is capped, every chunking keeps the
order. -/
theorem chunksInOrder_of_alwaysOpen (hopen : plan.simulation.data.AlwaysOpen)
    (hsim : plan.simulation.Uncapped) {chunks : List (List Session)} {progress : Progress F S D}
    (hstate : progress.state.Uncapped) : ChunksInOrder plan chunks progress := by
  induction chunks generalizing progress with
  | nil => trivial
  | cons sessions rest ih =>
    refine ⟨sessionsInOrder_of_alwaysOpen hopen hsim hstate, ?_⟩
    intro part hpart
    obtain ⟨_, _, state, _, -, hrun, hstate', -⟩ := runChunk_ok hpart
    apply ih
    rw [hstate']
    exact runReport_uncapped hsim hstate hrun

/-! ### A holding without an Open -/

/-- Buy the stocks 2 and 1, in this order, at the Open of session 2. -/
def twoStockPlan (opens : Session → InstrumentId → Option ℚ) : ChunkPlan ℚ Unit Unit ℕ where
  simulation :=
    { rounding := .decimal
      floats := rationalBinary64
      data := sampleMarket opens
      costs := sampleCosts 5
      initialCash := 100000
      initialCash_pos := hundredThousand_pos
      decide := plannedDecisions fun session =>
        if session = 1 then some (equalTarget 1 [2, 1] nodup_second_first) else none }
  calendar := [1, 2, 3]
  originSession := 1
  effectiveLookback := 0
  advanceChecksum checksum row := checksum.getD 0 + row.session + row.holdingsCount

lemma twoStockPlan_report (opens : Session → InstrumentId → Option ℚ) :
    ReportOf (twoStockPlan opens) [1, 2, 3] where
  sorted := by simp [twoStockPlan]
  placed := ⟨[], [], rfl⟩
  origin := rfl

lemma twoStockPlan_uncapped (opens : Session → InstrumentId → Option ℚ) :
    (twoStockPlan opens).simulation.Uncapped := by
  intro session reportIndex observation fills rejections state decision hdecide target htarget
  cases hdecide
  dsimp only at htarget
  split at htarget
  · cases htarget
    rfl
  · cases htarget

def openPlan : ChunkPlan ℚ Unit Unit ℕ :=
  twoStockPlan fun session id => some (10 + id + session)

lemma openPlan_runs :
    stoppedBy (executeChunks openPlan [[1, 2, 3]] ChunkState.initial) = none := by
  decide +kernel

theorem chunk_invariance_alwaysOpen :
    executeChunks openPlan [[1, 2], [3]] ChunkState.initial
      = .ok (okValue _ openPlan_runs) := by
  have hstart : (Progress.start openPlan.simulation : Progress ℚ Unit ℕ).state.Uncapped := by
    intro target htarget
    cases htarget
  have horder : ChunksInOrder openPlan [[1, 2], [3]] (Progress.start openPlan.simulation) :=
    chunksInOrder_of_alwaysOpen (fun _ _ => rfl) (twoStockPlan_uncapped _) hstart
  have hne : ∀ chunk ∈ ([[1, 2], [3]] : List (List Session)), chunk ≠ [] := by decide
  have hiff := chunk_invariance (fun _ _ heq => heq) (twoStockPlan_report _) hne horder
    (okValue _ openPlan_runs)
  exact hiff.mpr (okValue_eq openPlan_runs)

/-- The instruments of the valuation events of an execution, in their order. -/
def valuationOrder (result : Except StrategyError (ChunkOutcome ℚ Unit Unit ℕ)) :
    Option (List InstrumentId) :=
  result.toOption.map fun outcome => outcome.records.flatMap fun record =>
    record.daily.valuationEvents.map ValuationEvent.instrument

/-- Both stocks are suspended in session 3. -/
def suspendedPlan : ChunkPlan ℚ Unit Unit ℕ :=
  twoStockPlan fun session id => if session = 3 then none else some (10 + id)

theorem chunk_invariance_suspended :
    ¬∀ chunks : List (List Session), (∀ chunk ∈ chunks, chunk ≠ []) →
      ReportOf suspendedPlan chunks.flatten → ∀ outcome,
        executeChunks suspendedPlan chunks ChunkState.initial = .ok outcome
          ↔ executeChunks suspendedPlan [chunks.flatten] ChunkState.initial = .ok outcome := by
  intro h
  have hiff := h [[1, 2], [3]] (by decide) (twoStockPlan_report _)
  have hchunked : valuationOrder (executeChunks suspendedPlan [[1, 2], [3]] ChunkState.initial)
      = some [1, 2] := by decide +kernel
  have hwhole : valuationOrder (executeChunks suspendedPlan [[1, 2, 3]] ChunkState.initial)
      = some [2, 1] := by decide +kernel
  cases hresult : executeChunks suspendedPlan [[1, 2], [3]] ChunkState.initial with
  | error e =>
    rw [hresult] at hchunked
    cases hchunked
  | ok outcome =>
    have hsame := (hiff outcome).mp hresult
    rw [hresult] at hchunked
    change executeChunks suspendedPlan [[1, 2, 3]] ChunkState.initial = .ok outcome at hsame
    rw [hsame, hchunked] at hwhole
    revert hwhole
    decide

end ThesisTrace.Strategy
