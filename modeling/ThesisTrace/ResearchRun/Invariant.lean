import Mathlib.Data.List.Nodup
import ThesisTrace.Library.OrdinalLog
import ThesisTrace.ResearchRun.Effects

/-!
# The invariant of the Research Run tables

What holds of the rows of every Run after any interleaving of transactions. `RowsInvariant`
speaks about one Run; `Invariant` adds what relates the Runs, the pins and the claims that
the workers hold.
-/

namespace ThesisTrace.ResearchRun
open Transaction LabelledTransition OrdinalLog

variable {Digest : Type}

/-! ### Attempts -/

/-- The columns of an attempt that no transaction rewrites. -/
def Attempt.identity (attempt : Attempt) : AttemptId × Nat × Nat × CanonicalJson :=
  (attempt.id, attempt.ordinal, attempt.fence, attempt.dataGenerationId)

/-- An attempt that no longer runs. -/
def Attempt.settled (attempt : Attempt) : Prop :=
  attempt.status ≠ .running ∧ attempt.status ≠ .cancelling

/-- How the attempts of a Run agree with its status and fence: only the latest attempt may
still run, and a running Run whose latest attempt failed has a retry left. -/
def StatusInvariant (status : RunStatus) (fence : Nat) (attempts : List Attempt) : Prop :=
  match status with
  | .queued => attempts = []
  | .running => ∃ earlier latest, attempts = earlier ++ [latest] ∧ (∀ a ∈ earlier, a.settled) ∧
      (latest.status = .running ∧ latest.fence = fence ∨
        latest.status = .failed ∧ attempts.length < maxResearchRunAttempts)
  | .cancelling => ∃ earlier latest, attempts = earlier ++ [latest] ∧
      (∀ a ∈ earlier, a.settled) ∧ latest.status = .cancelling
  | .succeeded | .failed | .cancelled => ∀ a ∈ attempts, a.settled

/-- An update of rows that still run leaves settled rows alone. -/
lemma updateRows_settled {attempts : List Attempt} {selected : Attempt → Bool}
    (change : Attempt → Attempt) (hsettled : ∀ a ∈ attempts, a.settled)
    (hselected : ∀ a, selected a = true → a.status = .running ∨ a.status = .cancelling) :
    updateRows attempts selected change = attempts := by
  unfold updateRows
  conv_rhs => rw [← List.map_id attempts]
  apply List.map_congr_left
  intro a ha
  obtain ⟨hrunning, hcancelling⟩ := hsettled a ha
  rw [if_neg]
  · rfl
  · intro hsel
    rcases hselected a hsel with h | h
    · exact hrunning h
    · exact hcancelling h

lemma updateRows_latest {earlier : List Attempt} {latest : Attempt} {selected : Attempt → Bool}
    {change : Attempt → Attempt} (hsettled : ∀ a ∈ earlier, a.settled)
    (hselected : ∀ a, selected a = true → a.status = .running ∨ a.status = .cancelling) :
    updateRows (earlier ++ [latest]) selected change =
      earlier ++ [if selected latest then change latest else latest] := by
  have hearlier := updateRows_settled change hsettled hselected
  unfold updateRows at hearlier ⊢
  rw [List.map_append, hearlier, List.map_singleton]

/-- The attempt that still runs is the latest one. -/
lemma eq_latest_of_unsettled {earlier : List Attempt} {latest attempt : Attempt}
    (hsettled : ∀ a ∈ earlier, a.settled) (hmem : attempt ∈ earlier ++ [latest])
    (hrun : attempt.status = .running ∨ attempt.status = .cancelling) : attempt = latest := by
  rcases List.mem_append.mp hmem with h | h
  · obtain ⟨hrunning, hcancelling⟩ := hsettled attempt h
    exact (hrun.elim hrunning hcancelling).elim
  · exact List.mem_singleton.mp h

/-- Changing the attempt that still runs changes the latest row only. -/
lemma updateRows_unsettled {earlier : List Attempt} {latest attempt : Attempt}
    {selected : Attempt → Bool} (change : Attempt → Attempt)
    (hsettled : ∀ a ∈ earlier, a.settled) (hmem : attempt ∈ earlier ++ [latest])
    (hselect : selected attempt = true)
    (hselected : ∀ a, selected a = true → a.status = .running ∨ a.status = .cancelling) :
    attempt = latest ∧
      updateRows (earlier ++ [latest]) selected change = earlier ++ [change latest] := by
  have heq := eq_latest_of_unsettled hsettled hmem (hselected attempt hselect)
  subst heq
  refine ⟨rfl, ?_⟩
  rw [updateRows_latest hsettled hselected, if_pos hselect]

lemma settled_append {earlier : List Attempt} {latest : Attempt}
    (hsettled : ∀ a ∈ earlier, a.settled) (hlatest : latest.settled) :
    ∀ a ∈ earlier ++ [latest], a.settled := by
  intro a ha
  rcases List.mem_append.mp ha with hearlier | hlast
  · exact hsettled a hearlier
  · rw [List.mem_singleton.mp hlast]
    exact hlatest

lemma claimedAttempt_running {claim : ResearchRunExecutionClaim} {attempt : Attempt}
    (h : claimedAttempt claim attempt = true) :
    attempt.id = claim.attemptId ∧ attempt.fence = claim.fence ∧ attempt.status = .running := by
  simpa [claimedAttempt] using h

lemma unexpiredAttempt_running {clock : Timestamp} {claim : ResearchRunExecutionClaim}
    {attempt : Attempt} (h : unexpiredAttempt clock claim attempt = true) :
    claimedAttempt claim attempt = true ∧ clock < attempt.leaseExpiresAt := by
  simpa [unexpiredAttempt] using h

/-! ### The checkpoint chain -/

/-- Checkpoint rows with consecutive ordinals from `n + 1`, each of whose chain digests is
the digest of its binding to the preceding chain digest. -/
def ChainedFrom (sha256 : Document Digest → Digest) (input : ImmutableRunInput) (runId : RunId)
    (attempts : List Attempt) : Nat → Option Digest → List (ExecutionCheckpoint Digest) → Prop
  | _, _, [] => True
  | n, prior, row :: rest =>
    row.ordinal = n + 1 ∧
      (∃ creator, attempts.find? (·.id = row.attemptId) = some creator ∧
        row.chainSha256 =
          sha256 (.checkpointBinding (checkpointRowBinding sha256 input runId row creator prior))) ∧
      ChainedFrom sha256 input runId attempts (n + 1) (some row.chainSha256) rest

variable {sha256 : Document Digest → Digest} {input : ImmutableRunInput} {runId : RunId}

/-- Finding the creator of a checkpoint reads only columns that never change. -/
lemma find?_map_identity (attempts : List Attempt) (attemptId : AttemptId) :
    (attempts.find? (·.id = attemptId)).map Attempt.identity =
      (attempts.map Attempt.identity).find? (·.1 = attemptId) := by
  rw [List.find?_map]
  rfl

lemma ChainedFrom.mono {old new : List Attempt} {n : Nat} {prior : Option Digest}
    {rows : List (ExecutionCheckpoint Digest)}
    (hkeep : ∀ attemptId creator, old.find? (·.id = attemptId) = some creator →
      ∃ creator', new.find? (·.id = attemptId) = some creator' ∧
        creator'.identity = creator.identity)
    (h : ChainedFrom sha256 input runId old n prior rows) :
    ChainedFrom sha256 input runId new n prior rows := by
  induction rows generalizing n prior with
  | nil => trivial
  | cons row rest ih =>
    obtain ⟨hordinal, ⟨creator, hfind, hchain⟩, hrest⟩ := h
    obtain ⟨creator', hfind', hidentity⟩ := hkeep _ _ hfind
    refine ⟨hordinal, ⟨creator', hfind', ?_⟩, ih hrest⟩
    simp only [Attempt.identity, Prod.mk.injEq] at hidentity
    simp only [hchain, checkpointRowBinding, hidentity.2.2.1, hidentity.2.2.2]

lemma ChainedFrom.of_identity {old new : List Attempt} {n : Nat} {prior : Option Digest}
    {rows : List (ExecutionCheckpoint Digest)}
    (hid : new.map Attempt.identity = old.map Attempt.identity)
    (h : ChainedFrom sha256 input runId old n prior rows) :
    ChainedFrom sha256 input runId new n prior rows := by
  refine h.mono fun attemptId creator hfind => ?_
  have hsame := find?_map_identity new attemptId
  rw [hid, ← find?_map_identity, hfind, Option.map_some] at hsame
  exact Option.map_eq_some_iff.mp hsame

lemma ChainedFrom.append_attempt {old : List Attempt} {attempt : Attempt} {n : Nat}
    {prior : Option Digest} {rows : List (ExecutionCheckpoint Digest)}
    (h : ChainedFrom sha256 input runId old n prior rows) :
    ChainedFrom sha256 input runId (old ++ [attempt]) n prior rows := by
  refine h.mono fun attemptId creator hfind => ⟨creator, ?_, rfl⟩
  rw [List.find?_append, hfind, Option.some_or]

/-- The chain digest that the next checkpoint is bound to. -/
def lastChain (prior : Option Digest) (rows : List (ExecutionCheckpoint Digest)) :
    Option Digest :=
  (rows.getLast?.map ExecutionCheckpoint.chainSha256).or prior

lemma lastChain_cons (prior : Option Digest) (row : ExecutionCheckpoint Digest)
    (rest : List (ExecutionCheckpoint Digest)) :
    lastChain prior (row :: rest) = lastChain (some row.chainSha256) rest := by
  cases rest with
  | nil => rfl
  | cons next rest => simp [lastChain, List.getLast?_cons_cons, Option.or_of_isSome]

lemma chainedFrom_append {attempts : List Attempt} {n : Nat} {prior : Option Digest}
    {rows : List (ExecutionCheckpoint Digest)} {row : ExecutionCheckpoint Digest} :
    ChainedFrom sha256 input runId attempts n prior (rows ++ [row]) ↔
      ChainedFrom sha256 input runId attempts n prior rows ∧ row.ordinal = n + rows.length + 1 ∧
        ∃ creator, attempts.find? (·.id = row.attemptId) = some creator ∧
          row.chainSha256 = sha256 (.checkpointBinding
            (checkpointRowBinding sha256 input runId row creator (lastChain prior rows))) := by
  induction rows generalizing n prior with
  | nil => simp [ChainedFrom, lastChain]
  | cons first rest ih =>
    simp only [List.cons_append, ChainedFrom, ih, lastChain_cons, List.length_cons]
    constructor
    · rintro ⟨hfirst, hcreator, hrest, hordinal, hlast⟩
      exact ⟨⟨hfirst, hcreator, hrest⟩, by omega, hlast⟩
    · rintro ⟨⟨hfirst, hcreator, hrest⟩, hordinal, hlast⟩
      exact ⟨hfirst, hcreator, hrest, by omega, hlast⟩

lemma ChainedFrom.consecutive {attempts : List Attempt} {prior : Option Digest}
    {rows : List (ExecutionCheckpoint Digest)}
    (h : ChainedFrom sha256 input runId attempts 0 prior rows) :
    Consecutive ExecutionCheckpoint.ordinal rows := by
  induction rows using List.reverseRecOn with
  | nil => rfl
  | append_singleton rows row ih =>
    obtain ⟨hrows, hordinal, _⟩ := chainedFrom_append.mp h
    exact consecutive_append.mpr ⟨ih hrows, by omega⟩

/-! ### The invariant of one Run -/

structure RowsInvariant (sha256 : Document Digest → Digest) (runId : RunId)
    (run : RunRow Digest) (rows : RunTables Digest) : Prop where
  ordinals : Consecutive Attempt.ordinal rows.attempts
  fences : (rows.attempts.map Attempt.fence).Pairwise (· < ·)
  fence_le : ∀ fence ∈ rows.attempts.map Attempt.fence, fence ≤ run.executionFence
  bound : rows.attempts.length ≤ maxResearchRunAttempts
  status : StatusInvariant run.status run.executionFence rows.attempts
  chain : ChainedFrom sha256 run.immutableInput runId rows.attempts 0 none
    rows.executionCheckpoints

/-- A transaction that rewrites only the status columns has to restore only the status
invariant. -/
lemma RowsInvariant.update {run run' : RunRow Digest} {rows rows' : RunTables Digest}
    (h : RowsInvariant sha256 runId run rows)
    (hid : rows'.attempts.map Attempt.identity = rows.attempts.map Attempt.identity)
    (hfence : run.executionFence ≤ run'.executionFence)
    (hinput : run'.immutableInput = run.immutableInput)
    (hstatus : StatusInvariant run'.status run'.executionFence rows'.attempts)
    (hcheckpoints : rows'.executionCheckpoints = rows.executionCheckpoints ∨
      rows'.executionCheckpoints = []) : RowsInvariant sha256 runId run' rows' := by
  have hcolumn : ∀ {β : Type} (f : AttemptId × Nat × Nat × CanonicalJson → β),
      rows'.attempts.map (f ∘ Attempt.identity) = rows.attempts.map (f ∘ Attempt.identity) := by
    intro β f
    rw [← List.map_map, hid, List.map_map]
  have hordinals : rows'.attempts.map Attempt.ordinal = rows.attempts.map Attempt.ordinal :=
    hcolumn fun identity => identity.2.1
  have hfences : rows'.attempts.map Attempt.fence = rows.attempts.map Attempt.fence :=
    hcolumn fun identity => identity.2.2.1
  have hlength : rows'.attempts.length = rows.attempts.length := by
    simpa using congrArg List.length hid
  refine ⟨?_, ?_, ?_, ?_, hstatus, ?_⟩
  · unfold Consecutive
    rw [hordinals, hlength]
    exact h.ordinals
  · rw [hfences]
    exact h.fences
  · rw [hfences]
    exact fun fence hmem => (h.fence_le fence hmem).trans hfence
  · rw [hlength]
    exact h.bound
  · rcases hcheckpoints with hkeep | hnone
    · rw [hkeep, hinput]
      exact h.chain.of_identity hid
    · rw [hnone]
      trivial

lemma identity_updateRows {attempts : List Attempt} {selected : Attempt → Bool}
    {change : Attempt → Attempt} (h : ∀ a, (change a).identity = a.identity) :
    (updateRows attempts selected change).map Attempt.identity = attempts.map Attempt.identity :=
  map_updateRows _ _ _ _ h

lemma latestAttempt_eq {run : RunRow Digest} {rows : RunTables Digest}
    (h : RowsInvariant sha256 runId run rows) :
    latestAttempt rows.attempts = rows.attempts.getLast? :=
  argmax_eq_getLast? h.ordinals

/-- Recovering a lost attempt settles every attempt and leaves room for the next one. -/
lemma RowsInvariant.recovered {run : RunRow Digest} {rows : RunTables Digest}
    {clock : Timestamp} {attempts : List Attempt} (h : RowsInvariant sha256 runId run rows)
    (hclaimable : claimable clock run (latestAttempt rows.attempts) = true)
    (hrecovered : RecoveredAttempts clock rows.attempts attempts) :
    attempts.map Attempt.identity = rows.attempts.map Attempt.identity ∧
      (∀ a ∈ attempts, a.settled) ∧ attempts.length < maxResearchRunAttempts := by
  have hstatus := h.status
  rw [latestAttempt_eq h] at hclaimable
  unfold RecoveredAttempts at hrecovered
  rw [latestAttempt_eq h] at hrecovered
  cases hrun : run.status with
  | queued =>
    simp only [StatusInvariant, hrun] at hstatus
    simp only [hstatus, List.getLast?_nil] at hrecovered
    obtain ⟨rfl, _⟩ | ⟨_, hnone, _⟩ := hrecovered
    · simp [hstatus, maxResearchRunAttempts]
    · cases hnone
  | running =>
    simp only [StatusInvariant, hrun] at hstatus
    obtain ⟨earlier, latest, hattempts, hsettled, hlatest⟩ := hstatus
    simp only [hattempts, List.getLast?_concat] at hrecovered
    obtain ⟨rfl, hnot⟩ | ⟨lost, hlost, hlostRunning, hretry, rfl⟩ := hrecovered
    · obtain ⟨hrunning, _⟩ | ⟨hfailed, hroom⟩ := hlatest
      · exact absurd hrunning (hnot latest rfl)
      · refine ⟨by rw [hattempts], fun a ha => ?_, hattempts ▸ hroom⟩
        rcases List.mem_append.mp ha with hearlier | hlast
        · exact hsettled a hearlier
        · rw [List.mem_singleton.mp hlast]
          simp [Attempt.settled, hfailed]
    · rw [Option.some.injEq] at hlost
      subst hlost
      have hselected : ∀ a, lostAttempt clock latest.id a = true →
          a.status = .running ∨ a.status = .cancelling := by
        intro a ha
        simp only [lostAttempt, decide_eq_true_eq] at ha
        exact .inl ha.2.1
      have hexpired : lostAttempt clock latest.id latest = true := by
        simp only [hattempts, List.getLast?_concat, claimable, hrun] at hclaimable
        cases howner : run.executionOwner with
        | ordinary =>
          simp only [howner] at hclaimable
          simpa [lostAttempt, hlostRunning] using hclaimable
        | researchBatch => simp [howner] at hclaimable
      refine ⟨by rw [hattempts]; exact identity_updateRows fun _ => rfl, ?_, ?_⟩
      · rw [updateRows_latest hsettled hselected, hexpired, if_pos rfl]
        intro a ha
        rcases List.mem_append.mp ha with hearlier | hlast
        · exact hsettled a hearlier
        · rw [List.mem_singleton.mp hlast]
          simp [Attempt.settled, failAttempt]
      · have hordinal : latest.ordinal = rows.attempts.length := by
          have hconsecutive := h.ordinals
          rw [hattempts] at hconsecutive ⊢
          simpa using (consecutive_append.mp hconsecutive).2
        simp only [attemptRetryEligible, decide_eq_true_eq] at hretry
        rw [length_updateRows, ← hattempts, ← hordinal]
        exact hretry.trans_le (maxAttempts_le _)
  | cancelling | succeeded | failed | cancelled =>
    cases howner : run.executionOwner <;> simp [claimable, hrun, howner] at hclaimable

/-- Finishing the running attempt of a running Run settles every attempt. -/
lemma RowsInvariant.settles_running {run : RunRow Digest} {rows : RunTables Digest}
    {attempt : Attempt} {selected : Attempt → Bool} {change : Attempt → Attempt}
    (h : RowsInvariant sha256 runId run rows) (hrunning : run.status = .running)
    (hmem : attempt ∈ rows.attempts) (hselect : selected attempt = true)
    (hselected : ∀ a, selected a = true → a.status = .running)
    (hchange : (change attempt).settled) :
    ∀ a ∈ updateRows rows.attempts selected change, a.settled := by
  have hstatus := h.status
  simp only [StatusInvariant, hrunning] at hstatus
  obtain ⟨earlier, latest, hattempts, hsettled, _⟩ := hstatus
  rw [hattempts] at hmem
  obtain ⟨rfl, hupdate⟩ := updateRows_unsettled change hsettled hmem hselect
    fun a ha => .inl (hselected a ha)
  rw [hattempts, hupdate]
  exact settled_append hsettled hchange

/-- Renewing leases changes no status. -/
lemma StatusInvariant.update_lease {status : RunStatus} {fence : Nat} {attempts : List Attempt}
    {selected : Attempt → Bool} {lease : Timestamp} (h : StatusInvariant status fence attempts)
    (hselected : ∀ a, selected a = true → a.status = .running) :
    StatusInvariant status fence (updateRows attempts selected
      fun attempt => { attempt with leaseExpiresAt := lease }) := by
  have hlatest : ∀ {earlier : List Attempt} (latest : Attempt), (∀ a ∈ earlier, a.settled) →
      ∃ latest', updateRows (earlier ++ [latest]) selected
        (fun attempt => { attempt with leaseExpiresAt := lease }) = earlier ++ [latest'] ∧
        latest'.status = latest.status ∧ latest'.fence = latest.fence := by
    intro earlier latest hsettled
    refine ⟨_, updateRows_latest hsettled fun a ha => .inl (hselected a ha), ?_⟩
    split <;> exact ⟨rfl, rfl⟩
  cases status with
  | queued =>
    simp only [StatusInvariant] at h
    simp [StatusInvariant, h, updateRows]
  | running =>
    obtain ⟨earlier, latest, rfl, hsettled, hcases⟩ := h
    obtain ⟨latest', heq, hstatus, hfence⟩ := hlatest latest hsettled
    refine ⟨earlier, latest', heq, hsettled, ?_⟩
    rwa [hstatus, hfence, length_updateRows]
  | cancelling =>
    obtain ⟨earlier, latest, rfl, hsettled, hcases⟩ := h
    obtain ⟨latest', heq, hstatus, _⟩ := hlatest latest hsettled
    exact ⟨earlier, latest', heq, hsettled, hstatus.trans hcases⟩
  | succeeded | failed | cancelled =>
    rw [updateRows_settled _ h fun a ha => .inl (hselected a ha)]
    exact h

/-- A claim describes the attempt row that it was handed out for. -/
def ClaimMatches (claim : ResearchRunExecutionClaim) (rows : RunTables Digest) : Prop :=
  ∀ run, rows.run = some run → claim.immutableInput = run.immutableInput ∧
    ∃ creator, rows.attempts.find? (·.id = claim.attemptId) = some creator ∧
      creator.fence = claim.fence ∧ creator.dataGenerationId = claim.dataGenerationId

lemma committedPrior_eq {run : RunRow Digest} {rows : RunTables Digest}
    (h : RowsInvariant sha256 runId run rows) :
    committedPrior rows.executionCheckpoints =
      rows.executionCheckpoints.getLast?.map fun row => (row.ordinal, row.chainSha256) := by
  rw [committedPrior, latestCheckpoint, argmax_eq_getLast? h.chain.consecutive]

/-- The row that a commit inserts continues the chain. -/
lemma RowsInvariant.commit {run : RunRow Digest} {rows : RunTables Digest}
    {claim : ResearchRunExecutionClaim} {chunk : StagedChunk Digest}
    {expectedPrior : Option (Nat × Digest)} (h : RowsInvariant sha256 runId run rows)
    (hrun : rows.run = some run) (hclaim : claim.runId = runId) (hmatches : ClaimMatches claim rows)
    (hordinal : chunk.ordinal = (expectedPrior.map Prod.fst).getD 0 + 1)
    (hprior : committedPrior rows.executionCheckpoints = expectedPrior) :
    ChainedFrom sha256 run.immutableInput runId rows.attempts 0 none
      (rows.executionCheckpoints ++ [checkpointRow sha256 claim chunk expectedPrior]) := by
  obtain ⟨hinput, creator, hfind, hfence, hgeneration⟩ := hmatches run hrun
  have hlast := hprior
  rw [committedPrior_eq h] at hlast
  have hcount : (expectedPrior.map Prod.fst).getD 0 = rows.executionCheckpoints.length := by
    rw [← hlast, Option.map_map]
    exact getLast?_ordinal h.chain.consecutive
  have hchain : lastChain none rows.executionCheckpoints = expectedPrior.map Prod.snd := by
    rw [← hlast, Option.map_map, lastChain, Option.or_none]
    rfl
  refine chainedFrom_append.mpr ⟨h.chain, ?_, creator, hfind, ?_⟩
  · simp only [checkpointRow]
    omega
  · rw [hchain]
    simp only [checkpointRow, claimBinding, checkpointRowBinding, hinput, hclaim, hfence,
      hgeneration]

variable [DecidableEq Digest] {clock : Timestamp} {a : Action Digest} {v v' : RunView Digest}

/-- Every effect of a transaction keeps the invariant of its Run. -/
theorem RunEffect.rowsInvariant (heffect : RunEffect sha256 clock runId a v v')
    (hrows : ∀ run, v.rows.run = some run → RowsInvariant sha256 runId run v.rows)
    (hclaim : ∀ claim chunk expectedPrior, a = .commit claim chunk expectedPrior →
      ClaimMatches claim v.rows) :
    ∀ run', v'.rows.run = some run' → RowsInvariant sha256 runId run' v'.rows := by
  intro run' hrun'
  cases heffect with
  | unchanged => exact hrows run' hrun'
  | admitted =>
    simp only [admittedRows, Option.some.injEq] at hrun'
    subst hrun'
    exact ⟨rfl, .nil, by simp [admittedRows], by simp [admittedRows], rfl, trivial⟩
  | @claimed _ run attempts attempt _ _ _ hrun hclaimable hrecovered _ hordinal hfence hstatus _ =>
    simp only [Option.some.injEq] at hrun'
    subst hrun'
    have h := hrows run hrun
    obtain ⟨hid, hsettled, hroom⟩ := h.recovered hclaimable hrecovered
    have hkept : RowsInvariant sha256 runId { run with status := .failed }
        { v.rows with attempts := attempts } :=
      h.update hid le_rfl rfl hsettled (.inl rfl)
    have hnext : attempt.ordinal = attempts.length + 1 := by
      rw [hordinal, nextOrdinal, latestAttempt_eq hkept]
      exact congrArg (· + 1) (getLast?_ordinal hkept.ordinals)
    refine ⟨consecutive_append.mpr ⟨hkept.ordinals, hnext⟩, ?_, ?_, ?_, ?_,
      hkept.chain.append_attempt⟩
    · rw [List.map_append, List.map_singleton, List.pairwise_append]
      refine ⟨hkept.fences, List.pairwise_singleton _ _, fun fence hmem next hnext => ?_⟩
      rw [List.mem_singleton.mp hnext, hfence]
      exact Nat.lt_succ_of_le (hkept.fence_le fence hmem)
    · intro fence hmem
      rw [List.map_append, List.map_singleton] at hmem
      rcases List.mem_append.mp hmem with hold | hnew
      · exact (hkept.fence_le fence hold).trans (Nat.le_succ _)
      · rw [List.mem_singleton.mp hnew, hfence]
        exact le_rfl
    · rw [List.length_append, List.length_singleton]
      exact hroom
    · exact ⟨attempts, attempt, rfl, hsettled, .inl ⟨hstatus, hfence⟩⟩
  | @workerLost _ run lost hrun hlost hrunning hstatus hfence hexpired =>
    simp only [Option.some.injEq] at hrun'
    subst hrun'
    have h := hrows run hrun
    refine h.update (identity_updateRows fun _ => rfl) le_rfl rfl ?_ (.inr rfl)
    refine h.settles_running hrunning hlost (by simp [lostAttempt, hstatus, hexpired])
      (fun a ha => ?_) (by simp [Attempt.settled, failAttempt])
    simp only [lostAttempt, decide_eq_true_eq] at ha
    exact ha.2.1
  | renewed renewable lease _ hrenewable =>
    have h := hrows run' hrun'
    refine h.update (identity_updateRows fun _ => rfl) le_rfl rfl ?_ (.inl rfl)
    refine h.status.update_lease fun a ha => ?_
    exact (claimedAttempt_running (hrenewable a ha)).2.2
  | @committed _ claim _ chunk expectedPrior _ hclaimRun _ _ _ hordinal hprior =>
    have h := hrows run' hrun'
    exact { h with
      chain := h.commit hrun' hclaimRun (hclaim _ _ _ rfl) hordinal hprior }
  | @published _ claim run _ _ _ _ _ hcurrent _ =>
    simp only [Option.some.injEq] at hrun'
    subst hrun'
    have h := hrows run hcurrent.run_eq
    obtain ⟨attempt, hmem, hunexpired⟩ := hcurrent.attempt
    refine h.update (identity_updateRows fun _ => rfl) le_rfl rfl ?_ (.inr rfl)
    refine h.settles_running hcurrent.running hmem hunexpired (fun a ha => ?_)
      (by simp [Attempt.settled])
    exact (claimedAttempt_running (unexpiredAttempt_running ha).1).2.2
  | @retried _ claim run attempt reason _ _ hrun hrunning hfence hmem hclaimed hretry =>
    simp only [Option.some.injEq] at hrun'
    subst hrun'
    have h := hrows run hrun
    refine h.update (identity_updateRows fun _ => rfl) le_rfl rfl ?_ (.inl rfl)
    have hstatus := h.status
    simp only [StatusInvariant, hrunning] at hstatus
    obtain ⟨earlier, latest, hattempts, hsettled, _⟩ := hstatus
    rw [hattempts] at hmem
    obtain ⟨_, hupdate⟩ := updateRows_unsettled (failAttempt clock reason) hsettled hmem
      hclaimed fun a ha => .inl (claimedAttempt_running ha).2.2
    refine ⟨earlier, failAttempt clock reason latest, by rw [← hupdate, ← hattempts], hsettled,
      .inr ⟨rfl, ?_⟩⟩
    simp only [attemptRetryEligible, decide_eq_true_eq] at hretry
    rw [length_updateRows]
    exact hretry.trans_le (maxAttempts_le reason)
  | @failed _ claim run attempt reason _ _ hrun hrunning hfence hmem hclaimed =>
    simp only [Option.some.injEq] at hrun'
    subst hrun'
    have h := hrows run hrun
    refine h.update (identity_updateRows fun _ => rfl) le_rfl rfl ?_ (.inr rfl)
    exact h.settles_running hrunning hmem hclaimed
      (fun a ha => (claimedAttempt_running ha).2.2) (by simp [Attempt.settled, failAttempt])
  | @cancelling _ run _ _ hrun hrunning hany =>
    simp only [Option.some.injEq] at hrun'
    subst hrun'
    have h := hrows run hrun
    refine h.update (identity_updateRows fun _ => rfl) (Nat.le_succ _) rfl ?_ (.inl rfl)
    have hstatus := h.status
    simp only [StatusInvariant, hrunning] at hstatus
    obtain ⟨earlier, latest, hattempts, hsettled, _⟩ := hstatus
    obtain ⟨attempt, hmem, hselect⟩ := List.any_eq_true.mp hany
    rw [hattempts] at hmem
    obtain rfl := eq_latest_of_unsettled hsettled hmem (.inl (by simpa using hselect))
    refine ⟨earlier, { attempt with status := .cancelling, failureReason := some .userCancelled },
      ?_, hsettled, rfl⟩
    rw [cancelAttempts, hattempts, updateRows_latest hsettled fun a ha => .inl (by simpa using ha),
      if_pos hselect]
  | @cancelledIdle _ run _ _ hrun hidle =>
    simp only [Option.some.injEq] at hrun'
    subst hrun'
    have h := hrows run hrun
    refine h.update rfl (Nat.le_succ _) rfl ?_ (.inl rfl)
    have hstatus := h.status
    rcases hidle with hqueued | ⟨hrunning, hany⟩
    · simp only [StatusInvariant, hqueued] at hstatus
      simp [StatusInvariant, hstatus]
    · simp only [StatusInvariant, hrunning] at hstatus
      obtain ⟨earlier, latest, hattempts, hsettled, hlatest⟩ := hstatus
      have hidle : latest.status ≠ .running := by
        have hnone := List.any_eq_false.mp hany latest (by simp [hattempts])
        simpa using hnone
      obtain ⟨hlatestRunning, _⟩ | ⟨hlatestFailed, _⟩ := hlatest
      · exact absurd hlatestRunning hidle
      · simp only [StatusInvariant, hattempts]
        exact settled_append hsettled (by simp [Attempt.settled, hlatestFailed])
  | @cancelFinished _ run _ selected hrun hcancelling hselected hfound _ =>
    simp only [Option.some.injEq] at hrun'
    subst hrun'
    have h := hrows run hrun
    refine h.update (identity_updateRows fun _ => rfl) le_rfl rfl ?_ (.inr rfl)
    have hstatus := h.status
    simp only [StatusInvariant, hcancelling] at hstatus
    obtain ⟨earlier, latest, hattempts, hsettled, _⟩ := hstatus
    obtain ⟨attempt, hmem, hselect⟩ := hfound
    rw [hattempts] at hmem
    obtain ⟨_, hupdate⟩ := updateRows_unsettled (finishCancelledAttempt clock) hsettled
      hmem hselect fun a ha => .inr (hselected a ha)
    simp only [StatusInvariant, hattempts, hupdate]
    exact settled_append hsettled (by simp [Attempt.settled, finishCancelledAttempt])
  | deleted => cases hrun'

/-! ### The invariant of all Runs -/

structure Invariant (sha256 : Document Digest → Digest) (w : World Digest) : Prop where
  rows : ∀ runId run, (w.db.tables runId).run = some run →
    RowsInvariant sha256 runId run (w.db.tables runId)
  unowned : ∀ runId, runId ∉ w.db.runOwnership → w.db.tables runId = .empty
  absent : ∀ runId, (w.db.tables runId).run = none → w.db.tables runId = .empty
  owners : ∀ runId, ∀ attempt ∈ (w.db.tables runId).attempts,
    attempt.id ∈ w.db.pins.map GenerationPin.ownerId
  claims : ∀ claim ∈ w.claims, claim.runId ∈ w.db.runOwnership ∧
    ClaimMatches claim (w.db.tables claim.runId)

omit [DecidableEq Digest] in
theorem invariant_empty : Invariant sha256 (World.empty : World Digest) where
  rows := by simp [World.empty, Database.empty, RunTables.empty]
  unowned _ _ := rfl
  absent _ _ := rfl
  owners := by simp [World.empty, Database.empty, RunTables.empty]
  claims := by simp [World.empty]

/-- The identities of attempts and pin owners only grow, by the same new attempts. -/
def OnlyAppends (v v' : RunView Digest) : Prop :=
  ∃ added, v'.rows.attempts.map Attempt.identity =
    v.rows.attempts.map Attempt.identity ++ added ∧ v'.owners = v.owners ++ added.map Prod.fst

omit [DecidableEq Digest] in
lemma onlyAppends_same
    (hid : v'.rows.attempts.map Attempt.identity = v.rows.attempts.map Attempt.identity)
    (howners : v'.owners = v.owners) : OnlyAppends v v' :=
  ⟨[], by rw [hid, List.append_nil], by rw [howners, List.map_nil, List.append_nil]⟩

/-- The immutable columns survive every effect but deletion: attempts are only appended, and
the input of the Run is kept. -/
lemma RunEffect.keeps_identity (heffect : RunEffect sha256 clock runId a v v')
    {run' : RunRow Digest} (hrun' : v'.rows.run = some run')
    (hadmission : ∀ researcherId input executionOwner,
      a = .admitRun runId researcherId input executionOwner → v.rows.attempts = [] ∧ v.rows.run = none) :
    (v.rows.run = none ∨ ∃ run, v.rows.run = some run ∧ run'.immutableInput = run.immutableInput) ∧
      OnlyAppends v v' := by
  cases heffect with
  | unchanged => exact ⟨.inr ⟨run', hrun', rfl⟩, onlyAppends_same rfl rfl⟩
  | admitted researcherId input executionOwner =>
    obtain ⟨hnil, hnone⟩ := hadmission _ _ _ rfl
    exact ⟨.inl hnone, onlyAppends_same (by simp [admittedRows, hnil]) rfl⟩
  | @claimed _ run attempts attempt _ _ _ hrun _ hrecovered =>
    rw [← Option.some.inj hrun']
    refine ⟨.inr ⟨run, hrun, rfl⟩, [attempt.identity], ?_, rfl⟩
    obtain ⟨rfl, _⟩ | ⟨_, _, _, _, rfl⟩ := hrecovered
    · rw [List.map_append, List.map_singleton]
    · rw [List.map_append, List.map_singleton,
        identity_updateRows fun a => show (failAttempt clock .workerLost a).identity = _ from rfl]
  | @workerLost _ run _ hrun =>
    rw [← Option.some.inj hrun']
    exact ⟨.inr ⟨run, hrun, rfl⟩, onlyAppends_same (identity_updateRows fun _ => rfl) rfl⟩
  | renewed =>
    exact ⟨.inr ⟨run', hrun', rfl⟩, onlyAppends_same (identity_updateRows fun _ => rfl) rfl⟩
  | committed => exact ⟨.inr ⟨run', hrun', rfl⟩, onlyAppends_same rfl rfl⟩
  | @published _ _ run _ _ _ _ _ hcurrent =>
    rw [← Option.some.inj hrun']
    exact ⟨.inr ⟨run, hcurrent.run_eq, rfl⟩, onlyAppends_same (identity_updateRows fun _ => rfl) rfl⟩
  | @retried _ _ run _ _ _ _ hrun =>
    rw [← Option.some.inj hrun']
    exact ⟨.inr ⟨run, hrun, rfl⟩, onlyAppends_same (identity_updateRows fun _ => rfl) rfl⟩
  | @failed _ _ run _ _ _ _ hrun =>
    rw [← Option.some.inj hrun']
    exact ⟨.inr ⟨run, hrun, rfl⟩, onlyAppends_same (identity_updateRows fun _ => rfl) rfl⟩
  | @cancelling _ run _ _ hrun =>
    rw [← Option.some.inj hrun']
    exact ⟨.inr ⟨run, hrun, rfl⟩, onlyAppends_same (identity_updateRows fun _ => rfl) rfl⟩
  | @cancelledIdle _ run _ _ hrun =>
    rw [← Option.some.inj hrun']
    exact ⟨.inr ⟨run, hrun, rfl⟩, onlyAppends_same rfl rfl⟩
  | @cancelFinished _ run _ _ hrun =>
    rw [← Option.some.inj hrun']
    exact ⟨.inr ⟨run, hrun, rfl⟩, onlyAppends_same (identity_updateRows fun _ => rfl) rfl⟩
  | deleted => cases hrun'

/-- Only an admission gives rows to a Run that has none. -/
lemma RunEffect.of_empty (heffect : RunEffect sha256 clock runId a v v')
    (hempty : v.rows = .empty)
    (hadmission : ∀ researcherId input executionOwner,
      a ≠ .admitRun runId researcherId input executionOwner) : v'.rows = .empty := by
  have hnone : v.rows.run = none := by rw [hempty]; rfl
  cases heffect with
  | unchanged => exact hempty
  | admitted => exact absurd rfl (hadmission _ _ _)
  | renewed => simp [hempty, RunTables.empty, updateRows]
  | deleted => rfl
  | committed _ hcurrent | published _ _ _ _ hcurrent =>
    have hsome := hcurrent.run_eq
    simp [hnone] at hsome
  | claimed _ _ _ hrun | workerLost hrun | retried _ _ hrun | failed _ _ hrun
  | cancelling _ _ hrun | cancelledIdle _ _ hrun | cancelFinished _ _ hrun =>
    simp [hnone] at hrun

/-- A Run without a row has no attempts, progress or checkpoints either. -/
lemma RunEffect.absent (heffect : RunEffect sha256 clock runId a v v')
    (habsent : v.rows.run = none → v.rows = .empty) (hnone : v'.rows.run = none) :
    v'.rows = .empty := by
  cases heffect with
  | unchanged => exact habsent hnone
  | renewed => simp [habsent hnone, RunTables.empty, updateRows]
  | deleted => rfl
  | committed _ hcurrent =>
    have hsome := hcurrent.run_eq
    rw [show v.rows.run = none from hnone] at hsome
    cases hsome
  | admitted | claimed | workerLost | published | retried | failed | cancelling
  | cancelledIdle | cancelFinished => cases hnone

lemma RunEffect.owners_subset (heffect : RunEffect sha256 clock runId a v v') {owner : AttemptId}
    (hmem : owner ∈ v.owners) : owner ∈ v'.owners := by
  cases heffect with
  | claimed => exact List.mem_append_left _ hmem
  | unchanged | admitted | workerLost | renewed | committed | published | retried | failed
  | cancelling | cancelledIdle | cancelFinished | deleted => exact hmem

omit [DecidableEq Digest] in
/-- Appending attempts does not hide the creator of an older checkpoint. -/
lemma OnlyAppends.find? (h : OnlyAppends v v') {attemptId : AttemptId} {creator : Attempt}
    (hfind : v.rows.attempts.find? (·.id = attemptId) = some creator) :
    ∃ creator', v'.rows.attempts.find? (·.id = attemptId) = some creator' ∧
      creator'.identity = creator.identity := by
  obtain ⟨added, hid, _⟩ := h
  have hsame : (v'.rows.attempts.find? (·.id = attemptId)).map Attempt.identity =
      some creator.identity := by
    rw [find?_map_identity, hid, List.find?_append, ← find?_map_identity, hfind, Option.map_some,
      Option.some_or]
  exact Option.map_eq_some_iff.mp hsame

variable {leaseSeconds : Nat} {w w' : World Digest}

lemma commit_claim_mem {claim : ResearchRunExecutionClaim} {chunk : StagedChunk Digest}
    {expectedPrior : Option (Nat × Digest)}
    (h : Step sha256 leaseSeconds w (.commit claim chunk expectedPrior) w') :
    claim ∈ w.claims := by
  simp only [Step, step, bind_ok_iff, require_ok_iff] at h
  exact h.choose_spec.1

omit [DecidableEq Digest] in
/-- The claim that a claim transaction hands out describes the attempt row it inserted. -/
lemma ClaimHandedOut.matches {db db' : Database Digest} {claim : ResearchRunExecutionClaim}
    (h : ClaimHandedOut db db' runId claim)
    (howners : ∀ attempt ∈ (db.tables runId).attempts,
      attempt.id ∈ db.pins.map GenerationPin.ownerId) :
    claim.runId = runId ∧ (db.tables runId).run ≠ none ∧ ClaimMatches claim (db'.tables runId) := by
  obtain ⟨run, run', attempts, attempt, hrun, hrun', hattempts, hids, hfresh, hid, hattempt, hfence,
    hgeneration, hinput, hinput'⟩ := h
  refine ⟨hid, by simp [hrun], fun other hother => ?_⟩
  rw [hrun', Option.some.injEq] at hother
  subst hother
  refine ⟨hinput.trans hinput'.symm, attempt, ?_, hfence.symm, hgeneration.symm⟩
  have hnone : attempts.find? (·.id = claim.attemptId) = none := by
    rw [List.find?_eq_none]
    intro old hold
    have hmem : old.id ∈ (db.tables runId).attempts.map Attempt.id :=
      hids ▸ List.mem_map_of_mem hold
    obtain ⟨row, hrow, hrowId⟩ := List.mem_map.mp hmem
    simp only [decide_eq_true_eq]
    intro heq
    apply hfresh
    rw [← hattempt, ← heq, ← hrowId]
    exact howners row hrow
  rw [hattempts, List.find?_append, hnone, Option.none_or]
  simp [hattempt]

omit [DecidableEq Digest] in
lemma Invariant.owned (h : Invariant sha256 w) {run : RunRow Digest}
    (hrun : (w.db.tables runId).run = some run) : runId ∈ w.db.runOwnership := by
  by_contra hnot
  rw [h.unowned runId hnot] at hrun
  cases hrun

/-- Every committed transaction keeps the invariant of all Runs. -/
theorem Invariant.step (h : Invariant sha256 w) (hs : Step sha256 leaseSeconds w a w') :
    Invariant sha256 w' := by
  obtain ⟨clock, _, _, rfl⟩ | ⟨runId, htarget, haffects, hclaims⟩ := step_affects hs
  · exact ⟨h.rows, h.unowned, h.absent, h.owners, h.claims⟩
  have heffect := haffects.effect
  have howned : ∀ other, other ∈ w.db.runOwnership → other ∈ w'.db.runOwnership := by
    intro other hmem
    obtain ⟨_, heq⟩ | ⟨_, heq, _⟩ := haffects.ownership
    · exact heq ▸ hmem
    · exact heq ▸ List.mem_append_left _ hmem
  have hempty : runId ∉ w.db.runOwnership → (∀ researcherId input executionOwner,
      a ≠ .admitRun runId researcherId input executionOwner) → w'.db.tables runId = .empty :=
    fun hnot hadmission => heffect.of_empty (h.unowned runId hnot) hadmission
  have hadmission : ∀ researcherId input executionOwner,
      a = .admitRun runId researcherId input executionOwner → runId ∉ w.db.runOwnership := by
    intro researcherId input executionOwner ha
    obtain ⟨hnot, _⟩ | ⟨hnot, _⟩ := haffects.ownership
    · exact absurd ha (hnot _ _ _)
    · exact hnot
  have hkeeps : ∀ run', (w'.db.tables runId).run = some run' → _ := fun run' hrun' =>
    heffect.keeps_identity hrun' fun researcherId input executionOwner ha => by
      have hrows := h.unowned runId (hadmission _ _ _ ha)
      exact ⟨by simp [Database.view, hrows, RunTables.empty],
        by simp [Database.view, hrows, RunTables.empty]⟩
  refine ⟨?_, ?_, ?_, ?_, ?_⟩
  · intro other run hrun
    by_cases hother : other = runId
    · subst hother
      refine heffect.rowsInvariant (h.rows other) (fun claim chunk expectedPrior ha => ?_) run hrun
      subst ha
      have hmem := commit_claim_mem hs
      have hid : claim.runId = other := Option.some.inj htarget
      exact hid ▸ (h.claims claim hmem).2
    · rw [haffects.frame other hother] at hrun ⊢
      exact h.rows other run hrun
  · intro other hnot
    by_cases hother : other = runId
    · subst hother
      obtain ⟨hnotAdmit, heq⟩ | ⟨_, heq, _⟩ := haffects.ownership
      · exact hempty (heq ▸ hnot) hnotAdmit
      · exact absurd (by simp [heq]) hnot
    · rw [haffects.frame other hother]
      exact h.unowned other fun hmem => hnot (howned other hmem)
  · intro other hnone
    by_cases hother : other = runId
    · subst hother
      exact heffect.absent (h.absent other) hnone
    · rw [haffects.frame other hother] at hnone ⊢
      exact h.absent other hnone
  · intro other attempt hmem
    by_cases hother : other = runId
    · subst hother
      cases hrun' : (w'.db.tables other).run with
      | none =>
        rw [show w'.db.tables other = .empty from heffect.absent (h.absent other) hrun'] at hmem
        cases hmem
      | some run' =>
        obtain ⟨_, added, hid, howners⟩ := hkeeps run' hrun'
        have hidentity := List.mem_map_of_mem (f := Attempt.identity) hmem
        change _ ∈ (w'.db.view other).rows.attempts.map _ at hidentity
        rw [hid] at hidentity
        change _ ∈ (w'.db.view other).owners
        rw [howners]
        rcases List.mem_append.mp hidentity with hold | hnew
        · obtain ⟨old, hold, heq⟩ := List.mem_map.mp hold
          refine List.mem_append_left _ ?_
          rw [show attempt.id = old.id from congrArg Prod.fst heq.symm]
          exact h.owners other old hold
        · exact List.mem_append_right _ (List.mem_map_of_mem (f := Prod.fst) hnew)
    · rw [haffects.frame other hother] at hmem
      exact heffect.owners_subset (h.owners other attempt hmem)
  · intro claim hmem
    rcases hclaims claim hmem with hold | hnew
    · obtain ⟨hown, hmatches⟩ := h.claims claim hold
      refine ⟨howned _ hown, ?_⟩
      by_cases hother : claim.runId = runId
      · intro run' hrun'
        rw [hother] at hrun' hown hmatches ⊢
        obtain ⟨hnone | ⟨run, hrun, hinput⟩, happends⟩ := hkeeps run' hrun'
        · have hrows := heffect.of_empty (h.absent runId hnone) fun _ _ _ ha => hadmission _ _ _ ha hown
          rw [show w'.db.tables runId = .empty from hrows] at hrun'
          cases hrun'
        · obtain ⟨hsame, creator, hfind, hfence, hgeneration⟩ := hmatches run hrun
          obtain ⟨creator', hfind', hidentity⟩ := happends.find? hfind
          simp only [Attempt.identity, Prod.mk.injEq] at hidentity
          exact ⟨hsame.trans hinput.symm, creator', hfind', hidentity.2.2.1.trans hfence,
            hidentity.2.2.2.trans hgeneration⟩
      · rw [haffects.frame _ hother]
        exact hmatches
    · obtain ⟨hid, hrun, hmatches⟩ := hnew.matches (h.owners runId)
      obtain ⟨run, hrun⟩ := Option.ne_none_iff_exists'.mp hrun
      exact ⟨hid ▸ howned _ (h.owned hrun), hid ▸ hmatches⟩

theorem Exec.invariant_run {trace : List (Action Digest)}
    (h : Exec (Step sha256 leaseSeconds) World.empty trace w) : Invariant sha256 w :=
  h.invariant (fun _ _ _ hI hs => hI.step hs) invariant_empty

end ThesisTrace.ResearchRun
