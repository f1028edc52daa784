import Mathlib.Data.Finset.Card
import ThesisTrace.Library.Transaction
import ThesisTrace.ResearchRun.Transactions

/-!
# Tracking slots

The DailyTracks of all researchers, their selection for the researcher's quota, and the
transactions that admit, change and remove them. Each transaction commits with the new tables
and a reply, or rolls back with a `Refusal`. A researcher's admissions hold the capacity lock of
the researcher, so they take effect one after the other.
-/

namespace ThesisTrace.DailyTrack
open Transaction
open ResearchRun (updateRows)

abbrev ResearcherId := Nat
abbrev TrackId := Nat
abbrev RunId := Nat
abbrev ProgressionId := Nat
abbrev Session := Nat

/-! ### Rows -/

inductive TrackStatus
  | active
  | blocked
  | stopping
  | stopped
  deriving DecidableEq, Repr

inductive ProgressionStatus
  | running
  | stopping
  | succeeded
  | blocked
  | cancelled
  deriving DecidableEq, Repr

inductive AttemptStatus
  | running
  | stopping
  | succeeded
  | failed
  | cancelled
  deriving DecidableEq, Repr

structure SessionProgression where
  id : ProgressionId
  status : ProgressionStatus
  queuePosition : Option Nat
  deriving DecidableEq, Repr

structure ProgressionAttempt where
  id : Nat
  progressionId : ProgressionId
  status : AttemptStatus
  deriving DecidableEq, Repr

/-- What the worker and the user commands move, besides the status of a Track. -/
structure Progress where
  queuePosition : Option Nat
  blockedProgressionId : Option ProgressionId
  progressions : List SessionProgression
  attempts : List ProgressionAttempt
  currentStrategySession : Session
  deriving DecidableEq, Repr

/-- One row of `daily_tracks.tracks`, with the rows that belong to it. -/
structure Track where
  id : TrackId
  researcherId : ResearcherId
  seedRunId : RunId
  status : TrackStatus
  quotaSelected : Bool
  progress : Progress
  deriving DecidableEq, Repr

/-- `status IN ('active', 'blocked', 'stopping')` -/
def TrackStatus.isLive (status : TrackStatus) : Bool :=
  status = .active ∨ status = .blocked ∨ status = .stopping

/-- A live row of the researcher. -/
def Track.liveOf (researcherId : ResearcherId) (track : Track) : Bool :=
  track.researcherId = researcherId && track.status.isLive

/-! ### Refusals -/

inductive SelectionCode
  | trackSelectionInvalid
  | trackSelectionLocked
  | trackSelectionRequired
  | trackNotSelected
  deriving DecidableEq, Repr

inductive Refusal
  | trackingSelection (code : SelectionCode) (limit : Option Nat) (selected : Finset TrackId)
  | activationLimitReached (limit : Option Nat)
  | alreadyExists
  | uniqueViolation
  | quotaPolicyUnavailable
  | requestIdRequired
  | refreshConflict
  | refreshRequiresActive
  | refreshQueued
  | refreshRequiresIdle
  | headNotReady
  | upToDate
  | retryConflict
  | retryRequiresBlocked
  | noBlockedProgression
  | stopConflict
  | stopUnavailable
  | deleteConflict
  | fenced
  | temporarilyUnavailable
  deriving DecidableEq

/-! ### The selection -/

/-- The ids of the rows that a query of live Tracks returns. -/
def available (tracks : List Track) (researcherId : ResearcherId) : Finset TrackId :=
  ((tracks.filter fun track => track.liveOf researcherId).map Track.id).toFinset

def selected (tracks : List Track) (researcherId : ResearcherId) : Finset TrackId :=
  ((tracks.filter fun track => track.liveOf researcherId && track.quotaSelected).map
    Track.id).toFinset

/-- `limit is not None and n > limit` -/
def overLimit (limit : Option Nat) (n : Nat) : Prop := ∃ bound ∈ limit, bound < n

/-- `limit is not None and n >= limit` -/
def atLimit (limit : Option Nat) (n : Nat) : Prop := ∃ bound ∈ limit, bound ≤ n

instance (limit : Option Nat) (n : Nat) : Decidable (overLimit limit n) :=
  match limit with
  | none => .isFalse (by simp [overLimit])
  | some bound => decidable_of_iff (bound < n) (by simp [overLimit])

instance (limit : Option Nat) (n : Nat) : Decidable (atLimit limit n) :=
  match limit with
  | none => .isFalse (by simp [atLimit])
  | some bound => decidable_of_iff (bound ≤ n) (by simp [atLimit])

/-- The selection that an explicit list asks for. -/
def explicitSelection (available selected : Finset TrackId) (trackId : TrackId)
    (limit : Option Nat) (selectedTrackIds : List TrackId) : Except Refusal (Finset TrackId) := do
  let desired := selectedTrackIds.toFinset
  require (¬(desired.card ≠ selectedTrackIds.length ∨ ¬desired ⊆ available ∨ trackId ∉ desired ∨
      overLimit limit desired.card))
    (.trackingSelection .trackSelectionInvalid limit selected)
  if overLimit limit selected.card then
    require (¬(¬desired ⊆ selected ∨ some desired.card ≠ limit))
      (.trackingSelection .trackSelectionInvalid limit selected)
  else
    require (selected ⊆ desired) (.trackingSelection .trackSelectionLocked limit selected)
  return desired

/-- The selection after an admitted action, when the action changes it. -/
def desiredSelection (available selected : Finset TrackId) (trackId : TrackId)
    (limit : Option Nat) (selectedTrackIds : Option (List TrackId)) :
    Except Refusal (Option (Finset TrackId)) :=
  match selectedTrackIds with
  | some ids => do return some (← explicitSelection available selected trackId limit ids)
  | none =>
    if overLimit limit selected.card then
      .error (.trackingSelection .trackSelectionRequired limit selected)
    else if trackId ∈ selected then .ok none
    else if atLimit limit selected.card then
      .error (.trackingSelection .trackNotSelected limit selected)
    else .ok (some (insert trackId selected))

/-- `UPDATE daily_tracks.tracks SET quota_selected=(id=ANY(desired))` on the live rows. -/
def setSelection (tracks : List Track) (researcherId : ResearcherId) (desired : Finset TrackId) :
    List Track :=
  updateRows tracks (fun track => track.liveOf researcherId) fun track =>
    { track with quotaSelected := decide (track.id ∈ desired) }

def admitTrackingAction (tracks : List Track) (researcherId : ResearcherId) (trackId : TrackId)
    (limit : Option Nat) (selectedTrackIds : Option (List TrackId)) :
    Except Refusal (List Track) :=
  if trackId ∉ available tracks researcherId then .ok tracks -- the lifecycle refuses the action
  else do
    let desired ← desiredSelection (available tracks researcherId) (selected tracks researcherId)
      trackId limit selectedTrackIds
    return match desired with
      | some ids => setSelection tracks researcherId ids
      | none => tracks

/-! ### Tables -/

/-- The reply to a committed command, kept under its request id. The fingerprint of a request is
that of its Track. -/
structure Receipt where
  researcherId : ResearcherId
  requestId : String
  trackId : TrackId
  outcome : TrackStatus
  deriving DecidableEq, Repr

structure QuotaPolicy where
  activeDailyTrackLimit : Option Nat
  deriving DecidableEq, Repr

structure Tables where
  tracks : List Track
  refreshReceipts : List Receipt
  retryReceipts : List Receipt
  stopReceipts : List Receipt
  workQueueSequence : Nat
  /-- `data_through_session` of the Dataset Head -/
  currentPointer : Option Session
  quotaPolicy : ResearcherId → Option QuotaPolicy

def Tables.empty : Tables where
  tracks := []
  refreshReceipts := []
  retryReceipts := []
  stopReceipts := []
  workQueueSequence := 0
  currentPointer := none
  quotaPolicy := fun _ => none

inductive Reply
  | missing
  | replayed (status : TrackStatus)
  | done (status : TrackStatus)
  | external
  deriving DecidableEq, Repr

def Tables.track (s : Tables) (researcherId : ResearcherId) (trackId : TrackId) : Option Track :=
  s.tracks.find? fun track => track.researcherId = researcherId ∧ track.id = trackId

def receipt (receipts : List Receipt) (researcherId : ResearcherId) (requestId : String) :
    Option Receipt :=
  receipts.find? fun receipt =>
    receipt.researcherId = researcherId ∧ receipt.requestId = requestId

/-- `UPDATE` one row of `daily_tracks.tracks`. -/
def updateTrack (tracks : List Track) (trackId : TrackId) (change : Track → Track) : List Track :=
  updateRows tracks (fun track => track.id = trackId) change

/-! ### Commands -/

/-- A Refresh or Retry command; `requestId` is stripped. -/
structure Command where
  requestId : String
  selectedTrackIds : Option (List TrackId)
  deriving DecidableEq, Repr

def newTrack (trackId : TrackId) (researcherId : ResearcherId) (seedRunId : RunId)
    (boundary : Session) : Track where
  id := trackId
  researcherId := researcherId
  seedRunId := seedRunId
  status := .active
  quotaSelected := true -- the column's default
  progress :=
    { queuePosition := none, blockedProgressionId := none, progressions := [], attempts := []
      currentStrategySession := boundary }

/-- `activate` with the id that `uuid4` gives. -/
def activate (s : Tables) (researcherId : ResearcherId) (trackId : TrackId) (seedRunId : RunId)
    (boundary : Session) : Except Refusal (Tables × Reply) := do
  require (¬∃ track ∈ s.tracks, track.researcherId = researcherId ∧ track.seedRunId = seedRunId)
    .alreadyExists
  let capacity := (s.tracks.filter fun track =>
    track.liveOf researcherId && track.quotaSelected).length
  let policy ← found (s.quotaPolicy researcherId) .quotaPolicyUnavailable
  require (¬atLimit policy.activeDailyTrackLimit capacity)
    (.activationLimitReached policy.activeDailyTrackLimit)
  -- PRIMARY KEY (id) and UNIQUE (seed_run_id)
  require (¬∃ track ∈ s.tracks, track.id = trackId ∨ track.seedRunId = seedRunId) .uniqueViolation
  return ({ s with tracks := s.tracks ++ [newTrack trackId researcherId seedRunId boundary] },
    .done .active)

/-- A progression that keeps the Track from a Refresh. -/
def SessionProgression.unresolved (progression : SessionProgression) : Bool :=
  progression.status = .running ∨ progression.status = .stopping ∨ progression.status = .blocked

/-- A Track in the queue of the workers. -/
def Track.queue (position : Nat) (track : Track) : Track :=
  { track with progress := { track.progress with queuePosition := some position } }

/-- The lifecycle part of a Refresh, on the tables after the admission. -/
def queueRefresh (s : Tables) (researcherId : ResearcherId) (trackId : TrackId)
    (requestId : String) : Except Refusal (Tables × Reply) :=
  match s.track researcherId trackId with
  | none => .ok (s, .missing)
  | some track => do
    require (track.status = .active) .refreshRequiresActive
    require (track.progress.queuePosition = none) .refreshQueued
    require (¬track.progress.progressions.any SessionProgression.unresolved) .refreshRequiresIdle
    let currentHead ← found s.currentPointer .headNotReady
    require (track.progress.currentStrategySession < currentHead) .upToDate
    return ({ s with
      tracks := updateTrack s.tracks trackId (Track.queue s.workQueueSequence)
      workQueueSequence := s.workQueueSequence + 1
      refreshReceipts := s.refreshReceipts ++ [⟨researcherId, requestId, trackId, track.status⟩] },
      .done track.status)

def refresh (s : Tables) (researcherId : ResearcherId) (trackId : TrackId) (command : Command) :
    Except Refusal (Tables × Reply) := do
  require (command.requestId ≠ "") .requestIdRequired
  if s.track researcherId trackId = none then return (s, .missing)
  match receipt s.refreshReceipts researcherId command.requestId with
  | some earlier =>
    require (earlier.trackId = trackId) .refreshConflict
    return (s, .replayed earlier.outcome)
  | none =>
    let policy ← found (s.quotaPolicy researcherId) .quotaPolicyUnavailable
    let tracks ← admitTrackingAction s.tracks researcherId trackId policy.activeDailyTrackLimit
      command.selectedTrackIds
    queueRefresh { s with tracks := tracks } researcherId trackId command.requestId

/-- The blocked progression back in the queue of the workers. -/
def SessionProgression.resume (position : Nat) (progression : SessionProgression) :
    SessionProgression :=
  { progression with status := .running, queuePosition := some position }

/-- The Track of a resumed progression. -/
def Track.resume (progressionId : ProgressionId) (position : Nat) (track : Track) : Track :=
  { track with
    status := .active
    progress := { track.progress with
      blockedProgressionId := none
      queuePosition := none
      progressions := updateRows track.progress.progressions
        (fun progression => progression.id = progressionId && progression.status = .blocked)
        (SessionProgression.resume position) } }

/-- The lifecycle part of a Retry. Whether the target sessions still fit is found from the Track
and the Dataset, as `targetFits` says. -/
def resumeBlocked (s : Tables) (researcherId : ResearcherId) (trackId : TrackId)
    (requestId : String) (targetFits : Except Refusal Bool) : Except Refusal (Tables × Reply) :=
  match s.track researcherId trackId with
  | none => .ok (s, .missing)
  | some track => do
    require (track.status = .blocked) .retryRequiresBlocked
    let progression ← found
      (track.progress.progressions.find? fun progression => progression.status = .blocked)
      .noBlockedProgression
    require (track.progress.blockedProgressionId = some progression.id) .fenced
    let fits ← targetFits
    let outcome : TrackStatus := if fits then .active else .blocked
    return ({ s with
      tracks := if fits then
        updateTrack s.tracks trackId (Track.resume progression.id s.workQueueSequence)
      else s.tracks
      workQueueSequence := if fits then s.workQueueSequence + 1 else s.workQueueSequence
      retryReceipts := s.retryReceipts ++ [⟨researcherId, requestId, trackId, outcome⟩] },
      .done outcome)

def retry (s : Tables) (researcherId : ResearcherId) (trackId : TrackId) (command : Command)
    (targetFits : Except Refusal Bool) : Except Refusal (Tables × Reply) := do
  require (command.requestId ≠ "") .requestIdRequired
  if s.track researcherId trackId = none then return (s, .missing)
  match receipt s.retryReceipts researcherId command.requestId with
  | some earlier =>
    require (earlier.trackId = trackId) .retryConflict
    return (s, .replayed earlier.outcome)
  | none =>
    let policy ← found (s.quotaPolicy researcherId) .quotaPolicyUnavailable
    let tracks ← admitTrackingAction s.tracks researcherId trackId policy.activeDailyTrackLimit
      command.selectedTrackIds
    resumeBlocked { s with tracks := tracks } researcherId trackId command.requestId targetFits

/-- A Track that stops with no attempt running. -/
def Track.stopNow (track : Track) : Track :=
  { track with
    status := .stopped
    progress := { track.progress with
      blockedProgressionId := none
      queuePosition := none
      progressions := updateRows track.progress.progressions
        (fun progression => progression.status = .running || progression.status = .blocked)
        fun progression => { progression with status := .cancelled, queuePosition := none } } }

/-- A Track that waits for its running attempt to stop. -/
def Track.stopAttempt (attempt : ProgressionAttempt) (track : Track) : Track :=
  { track with
    status := .stopping
    progress := { track.progress with
      blockedProgressionId := none
      queuePosition := none
      attempts := updateRows track.progress.attempts
        (fun row => row.id = attempt.id && row.status = .running)
        fun row => { row with status := .stopping }
      progressions := updateRows track.progress.progressions
        (fun progression =>
          progression.id = attempt.progressionId && progression.status = .running)
        fun progression => { progression with status := .stopping, queuePosition := none } } }

def stop (s : Tables) (researcherId : ResearcherId) (trackId : TrackId) (requestId : String) :
    Except Refusal (Tables × Reply) := do
  require (requestId ≠ "") .requestIdRequired
  match s.track researcherId trackId with
  | none => return (s, .missing)
  | some track =>
    match receipt s.stopReceipts researcherId requestId with
    | some earlier =>
      require (earlier.trackId = trackId) .stopConflict
      return (s, .replayed earlier.outcome)
    | none =>
      require (track.status = .active ∨ track.status = .blocked) .stopUnavailable
      match track.progress.attempts.find? fun attempt => attempt.status = .running with
      | none =>
        return ({ s with
          tracks := updateTrack s.tracks trackId Track.stopNow
          stopReceipts := s.stopReceipts ++ [⟨researcherId, requestId, trackId, .stopped⟩] },
          .done .stopped)
      | some attempt =>
        require (track.progress.progressions.countP (fun progression =>
          progression.id = attempt.progressionId && progression.status = .running) = 1) .fenced
        require (track.status = .active) .fenced
        return ({ s with
          tracks := updateTrack s.tracks trackId (Track.stopAttempt attempt)
          stopReceipts := s.stopReceipts ++ [⟨researcherId, requestId, trackId, .stopping⟩] },
          .done .stopping)

/-- The receipts that `ON DELETE CASCADE` leaves. -/
def withoutTrack (receipts : List Receipt) (researcherId : ResearcherId) (trackId : TrackId) :
    List Receipt :=
  receipts.filter fun receipt =>
    ¬(receipt.researcherId = researcherId ∧ receipt.trackId = trackId)

def delete (s : Tables) (researcherId : ResearcherId) (trackId : TrackId) :
    Except Refusal (Tables × Reply) :=
  match s.track researcherId trackId with
  | none => .ok (s, .missing)
  | some track => do
    require (track.status = .stopped) .deleteConflict
    return ({ s with
      tracks := s.tracks.filter fun row =>
        ¬(row.researcherId = researcherId ∧ row.id = trackId ∧ row.status = .stopped)
      refreshReceipts := withoutTrack s.refreshReceipts researcherId trackId
      retryReceipts := withoutTrack s.retryReceipts researcherId trackId
      stopReceipts := withoutTrack s.stopReceipts researcherId trackId }, .done .stopped)

/-! ### Workers -/

/-- The statuses that the worker's transactions write: an attempt may block an active Track, and
the end of a stopping attempt stops its Track. -/
def workerMoves (before after : TrackStatus) : Prop :=
  after = before ∨ (before = .active ∧ after = .blocked) ∨ (before = .stopping ∧ after = .stopped)

instance (before after : TrackStatus) : Decidable (workerMoves before after) := by
  unfold workerMoves
  infer_instance

/-- A transaction of a tracking worker on one Track. -/
def work (s : Tables) (trackId : TrackId) (status : TrackStatus) (progress : Progress) :
    Except Refusal (Tables × Reply) := do
  let track ← found (s.tracks.find? fun track => track.id = trackId) .fenced
  require (workerMoves track.status status) .fenced
  return ({ s with
    tracks := updateTrack s.tracks trackId fun row =>
      { row with status := status, progress := progress } }, .done status)

/-! ### Histories -/

inductive Action
  | activate (researcherId : ResearcherId) (trackId : TrackId) (seedRunId : RunId)
      (boundary : Session)
  | refresh (researcherId : ResearcherId) (trackId : TrackId) (command : Command)
  | retry (researcherId : ResearcherId) (trackId : TrackId) (command : Command)
      (targetFits : Except Refusal Bool)
  | stop (researcherId : ResearcherId) (trackId : TrackId) (requestId : String)
  | delete (researcherId : ResearcherId) (trackId : TrackId)
  | work (trackId : TrackId) (status : TrackStatus) (progress : Progress)
  | publishHead (dataThroughSession : Session)
  | setQuotaPolicy (researcherId : ResearcherId) (policy : Option QuotaPolicy)

def perform (s : Tables) : Action → Except Refusal (Tables × Reply)
  | .activate researcherId trackId seedRunId boundary =>
    activate s researcherId trackId seedRunId boundary
  | .refresh researcherId trackId command => refresh s researcherId trackId command
  | .retry researcherId trackId command targetFits =>
    retry s researcherId trackId command targetFits
  | .stop researcherId trackId requestId => stop s researcherId trackId requestId
  | .delete researcherId trackId => delete s researcherId trackId
  | .work trackId status progress => work s trackId status progress
  | .publishHead session => .ok ({ s with currentPointer := some session }, .external)
  | .setQuotaPolicy researcherId policy =>
    .ok ({ s with quotaPolicy := Function.update s.quotaPolicy researcherId policy }, .external)

/-- The tables after an action; a refusal rolls back. -/
def Tables.next (s : Tables) (action : Action) : Tables :=
  match perform s action with
  | .ok (t, _) => t
  | .error _ => s

/-- The tables after a history. -/
def history (actions : List Action) : Tables := actions.foldl Tables.next Tables.empty

end ThesisTrace.DailyTrack
