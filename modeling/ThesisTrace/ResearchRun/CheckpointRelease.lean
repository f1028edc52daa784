import ThesisTrace.ResearchRun.Fencing

/-!
# Release of execution checkpoints

Every transaction that ends a Run releases the checkpoints of the Run, except a cancellation
between a retryable failure and the next claim. Executions without such a cancellation leave
a terminal or deleted Run neither checkpoint rows nor checkpoint manifests.
-/

namespace ThesisTrace.ResearchRun
open Transaction LabelledTransition OrdinalLog

variable {Digest : Type} {sha256 : Document Digest → Digest} {runId : RunId}

/-! ### Manifests of an execution -/

/-- The manifests that a committed transaction records. -/
def Action.manifests (sha256 : Document Digest → Digest) : Action Digest → List (Manifest Digest)
  | .commit holder chunk expectedPrior =>
    [checkpointManifest (claimBinding sha256 holder chunk expectedPrior)]
  | .publish holder resultObjects holdingObjects =>
    resultManifests sha256 holder resultObjects holdingObjects
  | _ => []

/-- No two manifests that the execution records have the same SHA-256. -/
def CollisionFree (sha256 : Document Digest → Digest) (trace : List (Action Digest)) : Prop :=
  ∀ m ∈ trace.flatMap (Action.manifests sha256), ∀ m' ∈ trace.flatMap (Action.manifests sha256),
    sha256 (.manifest m) = sha256 (.manifest m') → m = m'

lemma CollisionFree.of_append {trace : List (Action Digest)} {a : Action Digest}
    (h : CollisionFree sha256 (trace ++ [a])) : CollisionFree sha256 trace := by
  intro m hm m' hm'
  rw [CollisionFree, List.flatMap_append] at h
  exact h m (List.mem_append_left _ hm) m' (List.mem_append_left _ hm')

/-- The digest of a checkpoint manifest that the Run committed. -/
def CommittedManifest (sha256 : Document Digest → Digest) (trace : List (Action Digest))
    (runId : RunId) (manifest : Digest) : Prop :=
  ∃ claim chunk expectedPrior, .commit claim chunk expectedPrior ∈ trace ∧ claim.runId = runId ∧
    manifest = (checkpointRow sha256 claim chunk expectedPrior).checkpointManifestSha256

/-- The checkpoint manifest of a Run has no other source in a collision-free execution. -/
lemma CommittedManifest.source {trace : List (Action Digest)} {manifest : Digest}
    (h : CommittedManifest sha256 trace runId manifest) (hfree : CollisionFree sha256 trace)
    {m : Manifest Digest} (hm : m ∈ trace.flatMap (Action.manifests sha256))
    (heq : manifest = sha256 (.manifest m)) :
    ∃ binding, m = checkpointManifest binding ∧ binding.runId = runId := by
  obtain ⟨claim, chunk, expectedPrior, hmem, hid, rfl⟩ := h
  refine ⟨claimBinding sha256 claim chunk expectedPrior, ?_, hid⟩
  refine (hfree _ (List.mem_flatMap.mpr ⟨_, hmem, ?_⟩) m hm heq).symm
  simp [Action.manifests]

lemma committedManifest_append {trace : List (Action Digest)} {a : Action Digest}
    {manifest : Digest} (h : CommittedManifest sha256 (trace ++ [a]) runId manifest) :
    CommittedManifest sha256 trace runId manifest ∨
      ∃ claim chunk expectedPrior, a = .commit claim chunk expectedPrior ∧ claim.runId = runId ∧
        manifest = (checkpointRow sha256 claim chunk expectedPrior).checkpointManifestSha256 := by
  obtain ⟨claim, chunk, expectedPrior, hmem, hid, heq⟩ := h
  rcases List.mem_append.mp hmem with hold | hnew
  · exact .inl ⟨claim, chunk, expectedPrior, hold, hid, heq⟩
  · exact .inr ⟨claim, chunk, expectedPrior, (List.mem_singleton.mp hnew).symm, hid, heq⟩

def Action.commits : Action Digest → Bool
  | .commit .. => true
  | _ => false

/-- Only commits record checkpoint manifests. -/
lemma checkpointManifest_notMem {a : Action Digest} (ha : a.commits = false)
    (binding : CheckpointBinding Digest) : checkpointManifest binding ∉ a.manifests sha256 := by
  cases a with
  | commit => cases ha
  | publish claim resultObjects holdingObjects =>
    cases holdingObjects <;> simp [Action.manifests, resultManifests, checkpointManifest]
  | tick | admitRun | claim | finishExhausted | heartbeat | fail | cancel | confirmCancelled
  | recoverCancelled | delete => simp [Action.manifests]

lemma CommittedManifest.of_append {trace : List (Action Digest)} {a : Action Digest}
    {manifest : Digest} (h : CommittedManifest sha256 (trace ++ [a]) runId manifest)
    (ha : a.commits = false) : CommittedManifest sha256 trace runId manifest := by
  obtain hold | ⟨_, _, _, rfl, _⟩ := committedManifest_append h
  · exact hold
  · cases ha

/-! ### One transaction -/

/-- A new cancellation of a Run that waits for its retry with committed checkpoints. -/
def CancelsRetryGap (w : World Digest) (a : Action Digest) : Prop :=
  ∃ researcherId runId requestId run, a = .cancel researcherId runId requestId ∧
    (w.db.tables runId).run = some run ∧ run.status = .running ∧
    (w.db.tables runId).attempts.any (·.status = .running) = false ∧
    (w.db.tables runId).executionCheckpoints ≠ []

def AllowedAction (w : World Digest) (a : Action Digest) : Prop :=
  ¬CancelsRetryGap w a

variable [DecidableEq Digest] {clock : Timestamp} {a : Action Digest} {v v' : RunView Digest}
variable {leaseSeconds : Nat} {w w' : World Digest}

/-- A transaction keeps the checkpoints of its Run, appends one, or releases all of them. -/
inductive CheckpointEffect (sha256 : Document Digest → Digest) (a : Action Digest) :
    RunView Digest → RunView Digest → Prop
  | kept {v v' : RunView Digest} (ha : a.commits = false)
      (hrows : v'.rows.executionCheckpoints = v.rows.executionCheckpoints)
      (hmanifests : v'.manifests = v.manifests) : CheckpointEffect sha256 a v v'
  | appended {v v' : RunView Digest} (claim : ResearchRunExecutionClaim)
      (chunk : StagedChunk Digest) (expectedPrior : Option (Nat × Digest))
      (ha : a = .commit claim chunk expectedPrior)
      (hrows : v'.rows.executionCheckpoints =
        v.rows.executionCheckpoints ++ [checkpointRow sha256 claim chunk expectedPrior])
      (hmanifests : v'.manifests =
        v.manifests.insert (checkpointRow sha256 claim chunk expectedPrior).checkpointManifestSha256) :
      CheckpointEffect sha256 a v v'
  | released {v v' : RunView Digest} {recorded : List Digest} (ha : a.commits = false)
      (hrows : v'.rows.executionCheckpoints = [])
      (hrecorded : RecordsManifests sha256 (a.manifests sha256) v.manifests recorded)
      (hmanifests : ∀ manifest ∈ v'.manifests,
        manifest ∈ releasedManifests recorded v.rows.executionCheckpoints) :
      CheckpointEffect sha256 a v v'

omit [DecidableEq Digest] in
lemma RecordsManifests.refl (added : List (Manifest Digest)) (manifests : List Digest) :
    RecordsManifests sha256 added manifests manifests :=
  fun _ hm => .inl hm

/-- A terminal Run without checkpoints may lose any manifest. -/
lemma CheckpointEffect.of_nil (ha : a.commits = false) (hnil : v.rows.executionCheckpoints = [])
    (hrows : v'.rows.executionCheckpoints = [])
    (hmanifests : ∀ manifest ∈ v'.manifests, manifest ∈ v.manifests) :
    CheckpointEffect sha256 a v v' :=
  .released ha hrows (.refl _ v.manifests)
    fun manifest hm => by simpa [releasedManifests, hnil] using hmanifests manifest hm

lemma RunEffect.checkpointEffect (heffect : RunEffect sha256 clock runId a v v')
    (hadmission : ∀ researcherId input executionOwner,
      a = .admitRun runId researcherId input executionOwner → v.rows = .empty)
    (hterminal : ∀ run, v.rows.run = some run → run.status.terminal = true →
      v.rows.executionCheckpoints = []) : CheckpointEffect sha256 a v v' := by
  cases heffect with
  | claimed | renewed | retried | cancelling | cancelledIdle => exact .kept rfl rfl rfl
  | unchanged _ _ hidle =>
    refine .kept ?_ rfl rfl
    cases a <;> first | rfl | cases hidle
  | admitted =>
    exact .of_nil rfl (by rw [hadmission _ _ _ rfl]; rfl) rfl fun _ hm => hm
  | committed => exact .appended _ _ _ rfl rfl rfl
  | workerLost | failed => exact .released rfl rfl (.refl _ _) fun _ hm => hm
  | cancelFinished _ _ _ _ _ _ hname =>
    refine .released ?_ rfl (.refl _ _) fun _ hm => hm
    obtain ⟨_, rfl⟩ | ⟨_, rfl⟩ := hname <;> rfl
  | published _ _ _ _ _ hrecorded => exact .released rfl rfl hrecorded fun _ hm => hm
  | deleted _ _ hrun hstatus hmanifests =>
    exact .of_nil rfl (hterminal _ hrun hstatus) rfl hmanifests

/-! ### The release invariant -/

/-- A Run that has ended, by its status or by its deletion. -/
def Ended (rows : RunTables Digest) : Prop :=
  ∀ run, rows.run = some run → run.status.terminal = true

structure ReleaseInvariant (sha256 : Document Digest → Digest) (trace : List (Action Digest))
    (w : World Digest) : Prop where
  tables : Invariant sha256 w
  ended : ∀ runId, Ended (w.db.tables runId) → (w.db.tables runId).executionCheckpoints = []
  referenced : ∀ runId manifest, CommittedManifest sha256 trace runId manifest →
    manifest ∈ w.db.manifests → manifest ∈ (w.db.tables runId).executionCheckpoints.map
      ExecutionCheckpoint.checkpointManifestSha256

omit [DecidableEq Digest] in
lemma releaseInvariant_empty : ReleaseInvariant sha256 [] (World.empty : World Digest) where
  tables := invariant_empty
  ended _ _ := rfl
  referenced _ _ h := by
    obtain ⟨_, _, _, hmem, _⟩ := h
    cases hmem

omit [DecidableEq Digest] in
/-- A queued Run has committed nothing. -/
lemma RowsInvariant.queued_nil {run : RunRow Digest} {rows : RunTables Digest}
    (h : RowsInvariant sha256 runId run rows) (hqueued : run.status = .queued) :
    rows.executionCheckpoints = [] := by
  have hattempts := h.status
  simp only [StatusInvariant, hqueued] at hattempts
  have hchain := h.chain
  rw [hattempts] at hchain
  cases hrows : rows.executionCheckpoints with
  | nil => rfl
  | cons row rest =>
    rw [hrows] at hchain
    obtain ⟨_, ⟨creator, hfind, _⟩, _⟩ := hchain
    cases hfind

/-- A transaction that ends a Run leaves it no checkpoint rows. -/
lemma RunEffect.ended (heffect : RunEffect sha256 clock runId a v v')
    (hrows : ∀ run, v.rows.run = some run → RowsInvariant sha256 runId run v.rows)
    (hended : Ended v.rows → v.rows.executionCheckpoints = [])
    (hgap : ∀ researcherId requestId run, a = .cancel researcherId runId requestId →
      v.rows.run = some run → run.status = .running →
      v.rows.attempts.any (·.status = .running) = false → v.rows.executionCheckpoints = [])
    (hended' : Ended v'.rows) : v'.rows.executionCheckpoints = [] := by
  cases heffect with
  | admitted | workerLost | published | failed | cancelFinished | deleted => rfl
  | unchanged | renewed => exact hended hended'
  | claimed | retried | cancelling => cases hended' _ rfl
  | committed _ hcurrent =>
    have hstatus := hended' _ hcurrent.run_eq
    rw [hcurrent.running] at hstatus
    cases hstatus
  | cancelledIdle _ _ hrun hidle =>
    rcases hidle with hqueued | ⟨hrunning, hany⟩
    · exact (hrows _ hrun).queued_nil hqueued
    · exact hgap _ _ _ rfl hrun hrunning hany

/-- The retained checkpoint manifests of every Run stay referenced by its rows. -/
lemma CheckpointEffect.referenced {trace : List (Action Digest)} {other : RunId}
    {manifest : Digest}
    (heffect : CheckpointEffect sha256 a (w.db.view runId) (w'.db.view runId))
    (hframe : ∀ other, other ≠ runId → w'.db.tables other = w.db.tables other)
    (htarget : a.runId = some runId) (hfree : CollisionFree sha256 (trace ++ [a]))
    (hreferenced : CommittedManifest sha256 trace other manifest → manifest ∈ w.db.manifests →
      manifest ∈ (w.db.tables other).executionCheckpoints.map
        ExecutionCheckpoint.checkpointManifestSha256)
    (hcommitted : CommittedManifest sha256 (trace ++ [a]) other manifest)
    (hmem : manifest ∈ w'.db.manifests) :
    manifest ∈ (w'.db.tables other).executionCheckpoints.map
      ExecutionCheckpoint.checkpointManifestSha256 := by
  cases heffect with
  | kept ha hrows hmanifests =>
    change (w'.db.tables runId).executionCheckpoints = _ at hrows
    change w'.db.manifests = w.db.manifests at hmanifests
    have hold := hreferenced (hcommitted.of_append ha) (hmanifests ▸ hmem)
    by_cases hother : other = runId
    · subst hother
      rwa [hrows]
    · rwa [hframe other hother]
  | appended claim chunk expectedPrior ha hrows hmanifests =>
    subst ha
    obtain rfl : claim.runId = runId := Option.some.inj htarget
    change (w'.db.tables claim.runId).executionCheckpoints = _ at hrows
    change w'.db.manifests = _ at hmanifests
    have hnew : manifest = (checkpointRow sha256 claim chunk expectedPrior).checkpointManifestSha256 →
        other = claim.runId := by
      intro heq
      obtain ⟨binding, hbinding, hid⟩ := hcommitted.source hfree
        (m := checkpointManifest (claimBinding sha256 claim chunk expectedPrior))
        (by simp [Action.manifests]) heq
      simp only [checkpointManifest, Manifest.mk.injEq, Provenance.checkpoint.injEq] at hbinding
      rw [← hid, ← hbinding.2]
      rfl
    by_cases hother : other = claim.runId
    · subst hother
      rw [hrows, List.map_append, List.mem_append]
      rcases List.mem_insert_iff.mp (hmanifests ▸ hmem) with heq | hkept
      · exact .inr (by simp [heq])
      · obtain hold | ⟨holder, chunk', expectedPrior', ha, _, heq⟩ :=
          committedManifest_append hcommitted
        · exact .inl (hreferenced hold hkept)
        · obtain ⟨rfl, rfl, rfl⟩ := Action.commit.inj ha
          exact .inr (by simp [heq])
    · rw [hframe other hother]
      rcases List.mem_insert_iff.mp (hmanifests ▸ hmem) with heq | hkept
      · exact absurd (hnew heq) hother
      · obtain hold | ⟨_, _, _, ha, hid, _⟩ := committedManifest_append hcommitted
        · exact hreferenced hold hkept
        · obtain ⟨rfl, rfl, rfl⟩ := Action.commit.inj ha
          exact absurd hid.symm hother
  | released ha hrows hrecorded hmanifests =>
    change ∀ manifest ∈ w'.db.manifests, manifest ∈ releasedManifests _
      (w.db.tables runId).executionCheckpoints at hmanifests
    obtain ⟨hkept, hnot⟩ := List.mem_filter.mp (hmanifests manifest hmem)
    rcases hrecorded manifest hkept with hbefore | hadded
    · have hold := hreferenced (hcommitted.of_append ha) hbefore
      by_cases hother : other = runId
      · subst hother
        exact absurd hold (by simpa using hnot)
      · rwa [hframe other hother]
    · obtain ⟨m, hm, rfl⟩ := List.mem_map.mp hadded
      obtain ⟨binding, rfl, _⟩ := hcommitted.source hfree (m := m) (by simp [hm]) rfl
      exact absurd hm (checkpointManifest_notMem ha binding)

/-- A step other than a cancellation in the retry gap keeps the release invariant. -/
theorem ReleaseInvariant.step {trace : List (Action Digest)} (h : ReleaseInvariant sha256 trace w)
    (hfree : CollisionFree sha256 (trace ++ [a])) (hs : Step sha256 leaseSeconds w a w')
    (hallowed : AllowedAction w a) : ReleaseInvariant sha256 (trace ++ [a]) w' := by
  refine ⟨h.tables.step hs, ?_, ?_⟩
  · intro other hended
    obtain ⟨_, _, _, rfl⟩ | ⟨runId, _, haffects, _⟩ := step_affects hs
    · exact h.ended other hended
    by_cases hother : other = runId
    · subst hother
      refine haffects.effect.ended (h.tables.rows other) (h.ended other) ?_ hended
      intro researcherId requestId run ha hrun hrunning hany
      by_contra hnonempty
      exact hallowed ⟨researcherId, other, requestId, run, ha, hrun, hrunning, hany, hnonempty⟩
    · rw [haffects.frame other hother] at hended ⊢
      exact h.ended other hended
  · intro other manifest hcommitted hmem
    obtain ⟨_, rfl, _, rfl⟩ | ⟨runId, htarget, haffects, _⟩ := step_affects hs
    · exact h.referenced other manifest (hcommitted.of_append rfl) hmem
    have heffect : CheckpointEffect sha256 a (w.db.view runId) (w'.db.view runId) := by
      refine haffects.effect.checkpointEffect ?_ fun run hrun hterminal => ?_
      · intro researcherId input executionOwner ha
        obtain ⟨hnot, _⟩ | ⟨hfresh, _⟩ := haffects.ownership
        · exact absurd ha (hnot _ _ _)
        · exact h.tables.unowned runId hfresh
      · exact h.ended runId fun other hother => by
          rwa [← Option.some.inj (hrun.symm.trans hother)]
    exact heffect.referenced haffects.frame htarget hfree (h.referenced other manifest) hcommitted
      hmem

theorem Exec.releaseInvariant {trace : List (Action Digest)}
    (h : Exec (restrict (Step sha256 leaseSeconds) AllowedAction) World.empty trace w)
    (hfree : CollisionFree sha256 trace) : ReleaseInvariant sha256 trace w := by
  refine h.invariant_trace (I := fun trace w =>
    CollisionFree sha256 trace → ReleaseInvariant sha256 trace w) ?_
    (fun _ => releaseInvariant_empty) hfree
  intro trace w a w' ih hs hfree
  exact (ih hfree.of_append).step hfree hs.1 hs.2

/-- Terminal and deleted Runs hold no checkpoint rows and no checkpoint manifests. -/
def ReleasesCheckpoints (sha256 : Document Digest → Digest) (trace : List (Action Digest))
    (w : World Digest) : Prop :=
  ∀ runId ∈ w.db.runOwnership, Ended (w.db.tables runId) →
    (w.db.tables runId).executionCheckpoints = [] ∧
      ∀ manifest, CommittedManifest sha256 trace runId manifest → manifest ∉ w.db.manifests

/-- Executions that never cancel a Run in its retry gap release the checkpoints of every
Run that has ended. -/
theorem releases_checkpoints {trace : List (Action Digest)}
    (h : Exec (restrict (Step sha256 leaseSeconds) AllowedAction) World.empty trace w)
    (hfree : CollisionFree sha256 trace) : ReleasesCheckpoints sha256 trace w := by
  intro runId _ hended
  have hI := Exec.releaseInvariant h hfree
  have hnil := hI.ended runId hended
  refine ⟨hnil, fun manifest hcommitted hmem => ?_⟩
  have hrow := hI.referenced runId manifest hcommitted hmem
  rw [hnil] at hrow
  cases hrow

theorem releases_checkpoints_sample :
    ReleasesCheckpoints sampleSha256 sampleTrace (sampleWorld sampleTrace) := by
  have h : Exec (Step sampleSha256 90) World.empty sampleTrace (sampleWorld sampleTrace) :=
    exec_of_run rfl
  refine releases_checkpoints (h.restrict_of_forall fun a ha s => ?_) (by unfold CollisionFree; decide)
  rintro ⟨_, _, _, _, rfl, _⟩
  simp [sampleTrace] at ha

/-- A worker commits a chunk and fails retryably; the Run is cancelled before the retry. -/
def retryGapTrace : List (Action Nat) :=
  [.admitRun 1 7 sampleInput .ordinary, .claim 1 1 1 20240102 true,
    .commit (sampleClaim 1) sampleChunk none,
    .fail (sampleClaim 1) .infrastructureUnavailable "unavailable", .cancel 7 1 1]

theorem releases_checkpoints_retryGap :
    ¬∀ (trace : List (Action Nat)) (w : World Nat),
      Exec (Step sampleSha256 90) World.empty trace w → CollisionFree sampleSha256 trace →
      ReleasesCheckpoints sampleSha256 trace w := by
  intro h
  have hreleases := h retryGapTrace (sampleWorld retryGapTrace) (exec_of_run rfl)
    (by unfold CollisionFree; decide) 1 (by decide) (fun run hrun => by
      rw [← Option.some.inj hrun]
      rfl)
  exact absurd hreleases.1 (List.cons_ne_nil _ _)

end ThesisTrace.ResearchRun
