import ThesisTrace.ResearchRun.Invariant

/-!
# Run fencing

Which worker may write to a Run, how often its Result is recorded and which statuses are
final, under any interleaving of transactions.
-/

namespace ThesisTrace.ResearchRun
open Transaction LabelledTransition OrdinalLog

variable {Digest : Type} {sha256 : Document Digest → Digest} {runId : RunId}
variable [DecidableEq Digest] {clock : Timestamp} {a : Action Digest} {v v' : RunView Digest}
variable {leaseSeconds : Nat} {w w' : World Digest}

/-! ### The current fence -/

/-- The attempt of the claim holds the Run's current fence with an unexpired lease, and no
other attempt of the Run holds that fence. -/
def HoldsCurrentFence (db : Database Digest) (claim : ResearchRunExecutionClaim) : Prop :=
  ∃ run attempt, (db.tables claim.runId).run = some run ∧ run.status = .running ∧
    attempt ∈ (db.tables claim.runId).attempts ∧ attempt.id = claim.attemptId ∧
    attempt.fence = run.executionFence ∧ claim.fence = run.executionFence ∧
    attempt.status = .running ∧ db.clock < attempt.leaseExpiresAt ∧
    ∀ other ∈ (db.tables claim.runId).attempts, other.fence = run.executionFence → other = attempt

/-- The claim under which a transaction commits a checkpoint or publishes a Result. -/
def Action.executes (claim : ResearchRunExecutionClaim) : Action Digest → Prop
  | .commit holder .. | .publish holder .. => holder = claim
  | _ => False

omit [DecidableEq Digest] in
lemma RowsInvariant.holdsCurrentFence {db : Database Digest} {run : RunRow Digest}
    {claim : ResearchRunExecutionClaim}
    (h : RowsInvariant sha256 claim.runId run (db.tables claim.runId))
    (hcurrent : CurrentExecution db.clock claim (db.tables claim.runId) run) :
    HoldsCurrentFence db claim := by
  obtain ⟨attempt, hmem, hunexpired⟩ := hcurrent.attempt
  obtain ⟨hclaimed, hlease⟩ := unexpiredAttempt_running hunexpired
  obtain ⟨hid, hfence, hrunning⟩ := claimedAttempt_running hclaimed
  refine ⟨run, attempt, hcurrent.run_eq, hcurrent.running, hmem, hid,
    hfence.trans hcurrent.fence.symm, hcurrent.fence.symm, hrunning, hlease, ?_⟩
  intro other hother hsame
  have hnodup := (h.fences.imp fun hlt => ne_of_lt hlt : (_ : List Nat).Nodup)
  exact List.inj_on_of_nodup_map hnodup hother hmem
    (hsame.trans (hfence.trans hcurrent.fence.symm).symm)

/-- Only the holder of the current fence can commit a checkpoint or publish. -/
theorem executes_holdsCurrentFence {claim : ResearchRunExecutionClaim} (h : Invariant sha256 w)
    (hs : Step sha256 leaseSeconds w a w') (ha : a.executes claim) :
    HoldsCurrentFence w.db claim := by
  obtain ⟨_, rfl, _⟩ | ⟨runId, htarget, haffects, _⟩ := step_affects hs
  · cases ha
  have hcurrent : ∃ run, CurrentExecution w.db.clock claim (w.db.tables claim.runId) run := by
    cases a with
    | commit holder chunk expectedPrior =>
      subst ha
      simp only [Step, ResearchRun.step, bind_ok_iff] at hs
      obtain ⟨_, _, _, hcommit, _⟩ := hs
      exact commit_current hcommit
    | publish holder resultObjects holdingObjects =>
      subst ha
      simp only [Step, ResearchRun.step, bind_ok_iff] at hs
      obtain ⟨_, _, _, hpublish, _⟩ := hs
      exact publish_current hpublish
    | tick | admitRun | claim | finishExhausted | heartbeat | fail | cancel | confirmCancelled
    | recoverCancelled | delete => cases ha
  obtain ⟨run, hrun⟩ := hcurrent
  exact (h.rows claim.runId run hrun.run_eq).holdsCurrentFence hrun

/-- The Result of the Run has been recorded: the Run succeeded, or is gone. -/
def ResultRecorded (runId : RunId) (db : Database Digest) : Prop :=
  runId ∈ db.runOwnership ∧ ∀ run, (db.tables runId).run = some run → run.status = .succeeded

def Action.publishes (runId : RunId) : Action Digest → Bool
  | .publish holder .. => holder.runId = runId
  | _ => false

/-- A terminal Run keeps its status until it is deleted. -/
lemma RunEffect.terminal_status (heffect : RunEffect sha256 clock runId a v v')
    {run run' : RunRow Digest} (hrun : v.rows.run = some run)
    (hterminal : run.status.terminal = true) (hrun' : v'.rows.run = some run')
    (hadmission : ∀ researcherId input executionOwner,
      a ≠ .admitRun runId researcherId input executionOwner) : run'.status = run.status := by
  have hnot : ∀ {other : RunRow Digest}, v.rows.run = some other → other.status.terminal = true :=
    fun hother => by rwa [← Option.some.inj (hrun.symm.trans hother)]
  have hkept : v.rows.run = some run' → run'.status = run.status := fun hsame => by
    rw [Option.some.inj (hrun.symm.trans hsame)]
  cases heffect with
  | unchanged | renewed | committed => exact hkept hrun'
  | admitted => exact absurd rfl (hadmission _ _ _)
  | deleted => cases hrun'
  | @claimed _ other _ _ _ _ _ hother hclaimable =>
    have hstatus := hnot hother
    cases hcase : other.status <;> rw [hcase] at hstatus
    case queued | running | cancelling => cases hstatus
    all_goals cases howner : other.executionOwner <;> simp [claimable, hcase, howner] at hclaimable
  | published _ _ _ _ hcurrent =>
    have hstatus := hnot hcurrent.run_eq
    rw [hcurrent.running] at hstatus
    cases hstatus
  | workerLost hother _ hrunning | retried _ _ hother hrunning | failed _ _ hother hrunning
  | cancelling _ _ hother hrunning =>
    have hstatus := hnot hother
    rw [hrunning] at hstatus
    cases hstatus
  | cancelFinished _ _ hother hcancelling =>
    have hstatus := hnot hother
    rw [hcancelling] at hstatus
    cases hstatus
  | cancelledIdle _ _ hother hidle =>
    have hstatus := hnot hother
    rcases hidle with hqueued | ⟨hrunning, _⟩
    · rw [hqueued] at hstatus
      cases hstatus
    · rw [hrunning] at hstatus
      cases hstatus

/-- Every status that a Run has from now on, if it is terminal now. -/
def KeepsTerminal (w w' : World Digest) : Prop :=
  (∀ runId ∈ w.db.runOwnership, runId ∈ w'.db.runOwnership) ∧
    ∀ runId ∈ w.db.runOwnership, ∀ status : RunStatus, status.terminal = true →
      (∀ run, (w.db.tables runId).run = some run → run.status = status) →
      ∀ run', (w'.db.tables runId).run = some run' → run'.status = status

omit [DecidableEq Digest] in
lemma KeepsTerminal.refl (w : World Digest) : KeepsTerminal w w :=
  ⟨fun _ hmem => hmem, fun _ _ _ _ hall => hall⟩

omit [DecidableEq Digest] in
lemma KeepsTerminal.trans {w₁ w₂ w₃ : World Digest} (h : KeepsTerminal w₁ w₂)
    (h' : KeepsTerminal w₂ w₃) : KeepsTerminal w₁ w₃ :=
  ⟨fun runId hmem => h'.1 runId (h.1 runId hmem), fun runId hmem status hterminal hall =>
    h'.2 runId (h.1 runId hmem) status hterminal (h.2 runId hmem status hterminal hall)⟩

theorem Invariant.keepsTerminal (h : Invariant sha256 w)
    (hs : Step sha256 leaseSeconds w a w') : KeepsTerminal w w' := by
  obtain ⟨clock, _, _, rfl⟩ | ⟨runId, _, haffects, _⟩ := step_affects hs
  · exact KeepsTerminal.refl w
  have howned : ∀ other ∈ w.db.runOwnership, other ∈ w'.db.runOwnership := by
    intro other hmem
    obtain ⟨_, heq⟩ | ⟨_, heq, _⟩ := haffects.ownership
    · exact heq ▸ hmem
    · exact heq ▸ List.mem_append_left _ hmem
  refine ⟨howned, fun other hmem status hterminal hall run' hrun' => ?_⟩
  by_cases hother : other = runId
  · subst hother
    have hadmission : ∀ researcherId input executionOwner,
        a ≠ .admitRun other researcherId input executionOwner := by
      obtain ⟨hnot, _⟩ | ⟨hnot, _⟩ := haffects.ownership
      · exact hnot
      · exact absurd hmem hnot
    cases hrun : (w.db.tables other).run with
    | none =>
      have hempty := haffects.effect.of_empty (h.absent other hrun) hadmission
      rw [show w'.db.tables other = .empty from hempty] at hrun'
      cases hrun'
    | some run =>
      have hstatus := hall run hrun
      rw [← hstatus]
      exact haffects.effect.terminal_status hrun (hstatus ▸ hterminal) hrun' hadmission
  · rw [haffects.frame other hother] at hrun'
    exact hall run' hrun'

lemma RunEffect.publish_status {claim : ResearchRunExecutionClaim}
    {resultObjects : List (String × StagedPayload Digest)}
    {holdingObjects : Option (List (String × StagedPayload Digest))}
    (heffect : RunEffect sha256 clock runId (.publish claim resultObjects holdingObjects) v v')
    {run' : RunRow Digest} (hrun' : v'.rows.run = some run') : run'.status = .succeeded := by
  cases heffect with
  | unchanged _ _ hidle => cases hidle
  | published =>
    rw [← Option.some.inj hrun']
  | cancelFinished _ _ _ _ _ _ hname =>
    obtain ⟨_, hclaim⟩ | ⟨_, hid⟩ := hname
    · cases hclaim
    · cases hid

/-- A publication succeeds a Run whose Result was not recorded before. -/
lemma publishes_resultRecorded (h : Invariant sha256 w) (hs : Step sha256 leaseSeconds w a w')
    (ha : a.publishes runId = true) :
    ¬ResultRecorded runId w.db ∧ ResultRecorded runId w'.db := by
  cases a with
  | publish claim resultObjects holdingObjects =>
    simp only [Action.publishes, decide_eq_true_eq] at ha
    subst ha
    obtain ⟨_, ha, _⟩ | ⟨target, htarget, haffects, _⟩ := step_affects hs
    · cases ha
    obtain rfl : claim.runId = target := Option.some.inj htarget
    simp only [Step, ResearchRun.step, bind_ok_iff] at hs
    obtain ⟨_, _, _, hpublish, _⟩ := hs
    obtain ⟨run, hcurrent⟩ := publish_current hpublish
    have howned : claim.runId ∈ w.db.runOwnership := h.owned hcurrent.run_eq
    refine ⟨fun hrecorded => ?_, ?_, ?_⟩
    · have hsucceeded := hrecorded.2 run hcurrent.run_eq
      rw [hcurrent.running] at hsucceeded
      cases hsucceeded
    · obtain ⟨_, heq⟩ | ⟨hnot, _⟩ := haffects.ownership
      · exact heq ▸ howned
      · exact absurd howned hnot
    · intro run' hrun'
      exact haffects.effect.publish_status hrun'
  | tick | admitRun | claim | finishExhausted | heartbeat | commit | fail | cancel
  | confirmCancelled | recoverCancelled | delete => cases ha

omit [DecidableEq Digest] in
lemma KeepsTerminal.resultRecorded (h : KeepsTerminal w w') (hrecorded : ResultRecorded runId w.db) :
    ResultRecorded runId w'.db :=
  ⟨h.1 runId hrecorded.1, h.2 runId hrecorded.1 .succeeded rfl hrecorded.2⟩

/-- No execution publishes the Result of a Run twice. -/
theorem Exec.publishes_le_one {trace : List (Action Digest)}
    (h : Exec (Step sha256 leaseSeconds) World.empty trace w) (runId : RunId) :
    trace.countP (Action.publishes runId) ≤ 1 :=
  (h.countP_le_one (p := Action.publishes runId)
    (Q := fun w : World Digest => ResultRecorded runId w.db) (fun _ _ _ hI hs => hI.step hs)
    (fun _ _ _ hI hs ha => publishes_resultRecorded hI hs ha)
    (fun _ _ _ hI hs hrecorded => (hI.keepsTerminal hs).resultRecorded hrecorded)
    invariant_empty).1

/-- Every later status of a terminal Run is the status that it has now. -/
theorem Exec.keepsTerminal {trace : List (Action Digest)} (hI : Invariant sha256 w)
    (h : Exec (Step sha256 leaseSeconds) w trace w') : KeepsTerminal w w' :=
  h.relates (fun _ _ _ hI hs => hI.step hs) KeepsTerminal.refl (fun _ _ _ => KeepsTerminal.trans)
    (fun _ _ _ hI hs => hI.keepsTerminal hs) hI

/-! ### The fencing contract -/

/-- Run fencing, for any interleaving of the transactions of any number of workers. -/
theorem run_fencing {trace : List (Action Digest)}
    (h : Exec (Step sha256 leaseSeconds) World.empty trace w) :
    (∀ a w' claim, Step sha256 leaseSeconds w a w' → a.executes claim →
      HoldsCurrentFence w.db claim) ∧
    (∀ runId run, (w.db.tables runId).run = some run →
      Consecutive ExecutionCheckpoint.ordinal (w.db.tables runId).executionCheckpoints ∧
      ChainedFrom sha256 run.immutableInput runId (w.db.tables runId).attempts 0 none
        (w.db.tables runId).executionCheckpoints) ∧
    (∀ runId, trace.countP (Action.publishes runId) ≤ 1) ∧
    (∀ later w' runId run run', Exec (Step sha256 leaseSeconds) w later w' →
      (w.db.tables runId).run = some run → run.status.terminal = true →
      (w'.db.tables runId).run = some run' → run'.status = run.status) ∧
    ∀ runId, (w.db.tables runId).attempts.length ≤ 3 := by
  have hI := Exec.invariant_run h
  refine ⟨fun a w' claim hs ha => executes_holdsCurrentFence hI hs ha, fun runId run hrun => ?_,
    Exec.publishes_le_one h, fun later w' runId run run' hlater hrun hterminal hrun' => ?_,
    fun runId => ?_⟩
  · have hchain := (hI.rows runId run hrun).chain
    exact ⟨hchain.consecutive, hchain⟩
  · have howned : runId ∈ w.db.runOwnership := hI.owned hrun
    refine (Exec.keepsTerminal hI hlater).2 runId howned run.status hterminal (fun other hother => ?_)
      run' hrun'
    rw [← Option.some.inj (hrun.symm.trans hother)]
  · cases hrun : (w.db.tables runId).run with
    | none => simp [hI.absent runId hrun, RunTables.empty]
    | some run => exact (hI.rows runId run hrun).bound

/-! A worker that commits one chunk, loses its attempt and publishes after its retry. -/

def sampleSha256 : Document Nat → Nat
  | .json text => 1000 + text.length
  | .immutableInput _ => 1
  | .executionPlan _ => 2
  | .checkpointBinding binding => 100 + binding.ordinal
  | .manifest ⟨_, .checkpoint binding⟩ => 200 + binding.ordinal
  | .manifest ⟨_, .result _⟩ => 300
  | .manifest ⟨_, .holding _ _⟩ => 400

def sampleInput : ImmutableRunInput where
  researchKind := .factorEvaluation
  alphaExpression := "{}"
  fieldBindings := "[]"
  strategy := none
  costs := none
  riskFreeRate := none
  numericExecutionContract := "numeric-v1"
  semanticVersions := "semantic-v1"
  expressionAdmission := "admitted"
  generationManifestSha256 := "generation-1"
  financialResearchReadiness := "null"
  executionPlan :=
    { calculationSessions := [20240102], researchSessionOffset := 0, researchSessionCount := 1
      chunkSessionCount := 1, chunks := [⟨1, 20240102, 20240102, 1, 0, 1⟩] }

def sampleClaim (attemptId : AttemptId) : ResearchRunExecutionClaim where
  researcherId := 7
  runId := 1
  attemptId := attemptId
  attemptNumber := attemptId
  fence := attemptId
  generationPinId := attemptId
  dataGenerationId := "generation-1"
  dataThroughSession := 20240102
  immutableInput := sampleInput

def samplePayload : StagedPayload Nat := ⟨5, 8, "application/json", "canonical"⟩

def sampleChunk : StagedChunk Nat where
  ordinal := 1
  boundarySession := 20240102
  phase := .research
  completedWarmupSessions := 0
  completedResearchSessions := 1
  final := true
  observationSessions := []
  payloads := ⟨samplePayload, none, none, none, [], [], some samplePayload⟩

def sampleTrace : List (Action Nat) :=
  [.admitRun 1 7 sampleInput .ordinary, .claim 1 1 1 20240102 true,
    .commit (sampleClaim 1) sampleChunk none, .tick 100, .claim 1 2 2 20240102 true,
    .publish (sampleClaim 2) [("result", samplePayload)] none]

def sampleWorld (trace : List (Action Nat)) : World Nat :=
  (run sampleSha256 90 World.empty trace).toOption.getD World.empty

theorem run_fencing_sample :
    sampleTrace.countP (Action.publishes 1) ≤ 1 ∧
      ((sampleWorld sampleTrace).db.tables 1).run.map RunRow.status = some .succeeded ∧
      ((sampleWorld sampleTrace).db.tables 1).attempts.length ≤ 3 := by
  have h : Exec (Step sampleSha256 90) World.empty sampleTrace (sampleWorld sampleTrace) :=
    exec_of_run rfl
  obtain ⟨_, _, hpublishes, _, hattempts⟩ := run_fencing h
  exact ⟨hpublishes 1, rfl, hattempts 1⟩

end ThesisTrace.ResearchRun
