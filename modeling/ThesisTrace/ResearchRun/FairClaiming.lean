import Mathlib.Algebra.Order.Monoid.Unbundled.WithTop
import Mathlib.Algebra.Ring.Nat
import Mathlib.Data.List.Sort
import Mathlib.Data.Prod.Lex
import ThesisTrace.ResearchRun.Fencing

/-!
# Fair claiming

A claim holds an advisory lock, so that one claim runs at a time. Its query orders the claimable
Runs by the slots that their researchers occupy and by the last execution opportunity of each, and
locks the first one that no other transaction holds. The other transactions interleave.
-/

namespace ThesisTrace.ResearchRun
open Transaction LabelledTransition

variable {Digest : Type} [DecidableEq Digest]

/-- A database session. Those of the workers claim Runs. -/
abbrev SessionId := Nat

inductive Pool
  | research
  | batchResearch
  deriving DecidableEq

/-! ### The candidate query -/

/-- A selected row, as far as the order of the query uses it. -/
structure Candidate where
  researcherId : ResearcherId
  runId : RunId
  occupiedSlots : Nat
  /-- Nulls come first. -/
  lastSequence : WithBot Nat
  createdAt : Timestamp
  deriving DecidableEq

/-- `ORDER BY occupied_slots, history.last_sequence NULLS FIRST, run.created_at, run.id,
run.researcher_id` -/
def Candidate.key (row : Candidate) :
    Nat ×ₗ WithBot Nat ×ₗ Timestamp ×ₗ RunId ×ₗ ResearcherId :=
  toLex (row.occupiedSlots, toLex (row.lastSequence, toLex (row.createdAt,
    toLex (row.runId, row.researcherId))))

/-- A live lease of an attempt of an ordinary Run. -/
def holdsSlot (clock : Timestamp) (owning : RunRow Digest) (held : Attempt) : Bool :=
  owning.executionOwner = .ordinary ∧ clock < held.leaseExpiresAt ∧
    (held.status = .running ∧ owning.status = .running ∧ held.fence = owning.executionFence ∨
      held.status = .cancelling ∧ owning.status = .cancelling)

/-- The slots that a researcher occupies with one Run. -/
def slotsOfRun (db : Database Digest) (researcherId : ResearcherId) (runId : RunId) : Nat :=
  match ownedRun db researcherId runId with
  | none => 0
  | some owning => (db.tables runId).attempts.countP (holdsSlot db.clock owning)

def occupiedSlots (db : Database Digest) (researcherId : ResearcherId) : Nat :=
  (db.runOwnership.map (slotsOfRun db researcherId)).sum

/-- The row of a Run that the query may select. -/
def claimableRun (db : Database Digest) (runId : RunId) : Option (RunRow Digest) :=
  (db.tables runId).run.filter fun run =>
    claimable db.clock run (latestAttempt (db.tables runId).attempts)

/-! ### States -/

/-- How far the claim of a worker has come. -/
inductive ClaimPhase
  | idle
  | fenced
  /-- The ordered rows that are not locked yet. -/
  | selecting (rows : List Candidate)
  | selected (row : Candidate)
  /-- The opportunity has its number. -/
  | recorded (row : Candidate) (sequence : Nat)

structure FairState (Digest : Type) where
  world : World Digest
  createdAt : RunId → Timestamp
  /-- `researchers.execution_opportunities` -/
  lastSequence : Pool → ResearcherId → WithBot Nat
  /-- The last number that the sequence has given out. -/
  sequence : Nat
  /-- The holder of the advisory lock `research_runs.claim_fair`. -/
  claimLock : Option SessionId
  rowLocks : RunId → Option SessionId
  phases : SessionId → ClaimPhase

def FairState.empty : FairState Digest where
  world := .empty
  createdAt _ := 0
  lastSequence _ _ := ⊥
  sequence := 0
  claimLock := none
  rowLocks _ := none
  phases _ := .idle

namespace FairState

def candidate (s : FairState Digest) (runId : RunId) : Option Candidate :=
  (claimableRun s.world.db runId).map fun run =>
    { researcherId := run.researcherId
      runId := runId
      occupiedSlots := occupiedSlots s.world.db run.researcherId
      lastSequence := s.lastSequence .research run.researcherId
      createdAt := s.createdAt runId }

/-- The rows of the query in their order. -/
def candidates (s : FairState Digest) : List Candidate :=
  (s.world.db.runOwnership.filterMap s.candidate).insertionSort fun a b => a.key ≤ b.key

def setPhase (s : FairState Digest) (worker : SessionId) (phase : ClaimPhase) : FairState Digest :=
  { s with phases := Function.update s.phases worker phase }

/-- The end of a claim transaction gives back its locks. -/
def endClaim (s : FairState Digest) (worker : SessionId) : FairState Digest :=
  { s.setPhase worker .idle with
    claimLock := none
    rowLocks := fun runId => if s.rowLocks runId = some worker then none else s.rowLocks runId }

/-- `created_at` of an admitted Run. -/
def admittedAt (s : FairState Digest) : Action Digest → RunId → Timestamp
  | .admitRun runId _ _ _ => Function.update s.createdAt runId s.world.db.clock
  | _ => s.createdAt

/-- An upsert of the row of a researcher. -/
def recordExecutionOpportunity (s : FairState Digest) (pool : Pool) (researcherId : ResearcherId)
    (next : Nat) : FairState Digest :=
  { s with
    lastSequence := Function.update s.lastSequence pool
      (Function.update (s.lastSequence pool) researcherId next) }

end FairState

/-! ### Steps -/

def Action.isClaim : Action Digest → Bool
  | .claim .. => true
  | _ => false

inductive FairEvent (Digest : Type)
  | transact (session : SessionId) (action : Action Digest)
  | lockRow (session : SessionId) (runId : RunId)
  | unlockRow (session : SessionId) (runId : RunId)
  | batchOpportunity (researcherId : ResearcherId)
  /-- The query of a claim. -/
  | query (worker : SessionId)
  | work (worker : SessionId)
  /-- The commit of a claim that was given its opportunity. -/
  | opportunity (worker : SessionId) (researcherId : ResearcherId)

section Steps

variable (sha256 : Document Digest → Digest) (leaseSeconds : Nat)

/-- One atomic step. Numbers of the sequence are strictly increasing, and are not given back. -/
inductive FairStep : FairState Digest → FairEvent Digest → FairState Digest → Prop
  /-- A transaction other than a claim waits for the row of its Run. -/
  | transact {s action world} (session) (hother : action.isClaim = false)
    (hlock : ∀ runId ∈ action.runId, ∀ holder ∈ s.rowLocks runId, holder = session)
    (hstep : Step sha256 leaseSeconds s.world action world) :
    FairStep s (.transact session action)
      { s with world := world, createdAt := s.admittedAt action }
  | lockRow {s runId} (session) (hfree : s.rowLocks runId = none) :
    FairStep s (.lockRow session runId)
      { s with rowLocks := Function.update s.rowLocks runId (some session) }
  | unlockRow {s session runId} (hheld : s.rowLocks runId = some session) :
    FairStep s (.unlockRow session runId)
      { s with rowLocks := Function.update s.rowLocks runId none }
  /-- The claims of the Batches draw from the same sequence. -/
  | batchOpportunity {s} (researcherId value next) (hvalue : value ≤ next)
    (hnext : s.sequence ≤ next) :
    FairStep s (.batchOpportunity researcherId)
      { s.recordExecutionOpportunity .batchResearch researcherId value with sequence := next }
  | acquire {s worker} (hidle : s.phases worker = .idle) (hfree : s.claimLock = none) :
    FairStep s (.work worker) { s.setPhase worker .fenced with claimLock := some worker }
  | query {s worker} (hphase : s.phases worker = .fenced) :
    FairStep s (.query worker) (s.setPhase worker (.selecting s.candidates))
  /-- `SKIP LOCKED`; a row that has changed since the query is tested again. -/
  | skip {s worker row rows} (hphase : s.phases worker = .selecting (row :: rows))
    (hskip : s.rowLocks row.runId ≠ none ∨ claimableRun s.world.db row.runId = none) :
    FairStep s (.work worker) (s.setPhase worker (.selecting rows))
  | select {s worker row rows} (hphase : s.phases worker = .selecting (row :: rows))
    (hfree : s.rowLocks row.runId = none) :
    FairStep s (.work worker) { s.setPhase worker (.selected row) with
      rowLocks := Function.update s.rowLocks row.runId (some worker) }
  | nextval {s worker row} (hphase : s.phases worker = .selected row) (next)
    (hnext : s.sequence < next) :
    FairStep s (.work worker) { s.setPhase worker (.recorded row next) with sequence := next }
  | opportunity {s worker row next attemptId pinId dataThroughSession db claim}
    (hphase : s.phases worker = .recorded row next)
    (hclaim : claimNext s.world.db row.runId attemptId pinId dataThroughSession true leaseSeconds =
      .ok (db, .claimed claim)) :
    FairStep s (.opportunity worker row.researcherId)
      ({ s with world := s.world.learn (db, .claimed claim) }.recordExecutionOpportunity .research
        row.researcherId next |>.endClaim worker)
  /-- A lost attempt without a retry is left to its own transaction. -/
  | exhausted {s worker row attemptId pinId dataThroughSession db recovery}
    (hphase : s.phases worker = .selected row)
    (hclaim : claimNext s.world.db row.runId attemptId pinId dataThroughSession true leaseSeconds =
      .ok (db, .exhausted recovery)) :
    FairStep s (.work worker)
      ({ s with world := s.world.learn (db, .exhausted recovery) }.endClaim worker)
  /-- No row was selected, or the transaction rolls back. -/
  | abandon {s worker} (hphase : s.phases worker ≠ .idle) :
    FairStep s (.work worker) (s.endClaim worker)

end Steps

/-! ### What a step does to the history -/

def FairEvent.opportunityOf : FairEvent Digest → Option ResearcherId
  | .opportunity _ researcherId => some researcherId
  | _ => none

section History

variable {sha256 : Document Digest → Digest} {leaseSeconds : Nat} {s t : FairState Digest}
  {event : FairEvent Digest} {A B : ResearcherId} {w worker : SessionId}

omit [DecidableEq Digest] in
@[simp] lemma recordExecutionOpportunity_self (next : Nat) :
    (s.recordExecutionOpportunity .research A next).lastSequence .research A = next := by
  simp [FairState.recordExecutionOpportunity]

omit [DecidableEq Digest] in
lemma recordExecutionOpportunity_other (h : B ≠ A) (next : Nat) :
    (s.recordExecutionOpportunity .research A next).lastSequence .research B =
      s.lastSequence .research B := by
  simp [FairState.recordExecutionOpportunity, h]

omit [DecidableEq Digest] in
@[simp] lemma recordExecutionOpportunity_batch (next : Nat) :
    (s.recordExecutionOpportunity .batchResearch A next).lastSequence .research =
      s.lastSequence .research := by
  simp [FairState.recordExecutionOpportunity]

/-- Only its own opportunities change the history of a researcher. -/
lemma lastSequence_of_step (hstep : FairStep sha256 leaseSeconds s event t)
    (hevent : event.opportunityOf ≠ some B) :
    t.lastSequence .research B = s.lastSequence .research B := by
  cases hstep with
  | batchOpportunity researcherId value next hvalue hnext => simp
  | opportunity hphase hclaim =>
    apply recordExecutionOpportunity_other
    rintro rfl
    exact hevent rfl
  | _ => rfl

lemma lastSequence_of_exec {events : List (FairEvent Digest)}
    (hexec : Exec (FairStep sha256 leaseSeconds) s events t)
    (hevents : ∀ event ∈ events, event.opportunityOf ≠ some B) :
    t.lastSequence .research B = s.lastSequence .research B := by
  have hrestricted : Exec (restrict (FairStep sha256 leaseSeconds)
      fun _ event => event.opportunityOf ≠ some B) s events t :=
    hexec.restrict_of_forall fun event hmem _ => hevents event hmem
  apply hrestricted.invariant
    (I := fun u => u.lastSequence .research B = s.lastSequence .research B) _ rfl
  intro u event v hu ⟨hstep, hevent⟩
  exact (lastSequence_of_step hstep hevent).trans hu

/-- Where a step may take the phase of a worker. -/
inductive PhaseMove (s : FairState Digest) (event : FairEvent Digest) (w : SessionId) :
    ClaimPhase → Prop
  | keep : PhaseMove s event w (s.phases w)
  | finish : PhaseMove s event w .idle
  | acquire : PhaseMove s event w .fenced
  | query (hevent : event = .query w) : PhaseMove s event w (.selecting s.candidates)
  | skip {row rows} (hphase : s.phases w = .selecting (row :: rows))
    (hskip : s.rowLocks row.runId ≠ none ∨ claimableRun s.world.db row.runId = none) :
    PhaseMove s event w (.selecting rows)
  | select {row rows} (hphase : s.phases w = .selecting (row :: rows)) :
    PhaseMove s event w (.selected row)
  | nextval {row} (hphase : s.phases w = .selected row) (next) : PhaseMove s event w (.recorded row next)

omit [DecidableEq Digest] in
@[simp] lemma setPhase_self (phase : ClaimPhase) : (s.setPhase worker phase).phases worker = phase := by
  simp [FairState.setPhase]

omit [DecidableEq Digest] in
lemma setPhase_other (hw : w ≠ worker) (phase : ClaimPhase) :
    (s.setPhase worker phase).phases w = s.phases w := by
  simp [FairState.setPhase, hw]

omit [DecidableEq Digest] in
lemma phaseMove_setPhase {phase : ClaimPhase}
    (h : w = worker → PhaseMove s event w phase) :
    PhaseMove s event w ((s.setPhase worker phase).phases w) := by
  by_cases hw : w = worker
  · subst hw
    rw [setPhase_self]
    exact h rfl
  · rw [setPhase_other hw]
    exact .keep

lemma phaseMove_of_step (hstep : FairStep sha256 leaseSeconds s event t) (w : SessionId) :
    PhaseMove s event w (t.phases w) := by
  cases hstep with
  | transact | lockRow | unlockRow | batchOpportunity => exact .keep
  | acquire => exact phaseMove_setPhase fun _ => .acquire
  | query => exact phaseMove_setPhase fun hw => .query (hw ▸ rfl)
  | skip hphase hskip => exact phaseMove_setPhase fun hw => .skip (hw ▸ hphase) hskip
  | select hphase => exact phaseMove_setPhase fun hw => .select (hw ▸ hphase)
  | nextval hphase next => exact phaseMove_setPhase fun hw => .nextval (hw ▸ hphase) next
  | opportunity | exhausted | abandon => exact phaseMove_setPhase fun _ => .finish

/-! ### The invariant -/

/-- One claim runs at a time, and a number that it holds is later than all recorded ones. -/
structure FairInvariant (sha256 : Document Digest → Digest) (s : FairState Digest) : Prop where
  rows : Invariant sha256 s.world
  lock : ∀ worker, s.phases worker ≠ .idle → s.claimLock = some worker
  past : ∀ researcherId, s.lastSequence .research researcherId ≤ s.sequence
  drawn : ∀ worker row next, s.phases worker = .recorded row next → next ≤ s.sequence ∧
    ∀ researcherId, s.lastSequence .research researcherId < next

omit [DecidableEq Digest] in
lemma fairInvariant_empty : FairInvariant sha256 (FairState.empty : FairState Digest) where
  rows := invariant_empty
  lock _ h := absurd rfl h
  past _ := bot_le
  drawn _ _ _ h := nomatch h

omit [DecidableEq Digest] in
/-- While a worker claims, every other one is idle. -/
lemma FairInvariant.others_idle (h : FairInvariant sha256 s) (hphase : s.phases worker ≠ .idle)
    (hw : w ≠ worker) : s.phases w = .idle := by
  by_contra hbusy
  have hlock := (h.lock w hbusy).symm.trans (h.lock worker hphase)
  exact hw (Option.some.inj hlock)

omit [DecidableEq Digest] in
/-- The worker that claims goes on, or begins under the advisory lock. -/
lemma lock_setPhase {phase : ClaimPhase} {lock : Option SessionId} (h : FairInvariant sha256 s)
    (hlock : lock = some worker) (hclaim : s.claimLock = none ∨ s.phases worker ≠ .idle)
    (hw : (s.setPhase worker phase).phases w ≠ .idle) : lock = some w := by
  by_cases heq : w = worker
  · rw [heq]
    exact hlock
  · rw [setPhase_other heq] at hw
    rcases hclaim with hfree | hclaim
    · rw [h.lock w hw] at hfree
      cases hfree
    · exact absurd (h.others_idle hclaim heq) hw

omit [DecidableEq Digest] in
lemma drawn_setPhase {phase : ClaimPhase} {row : Candidate} {next : Nat}
    (h : FairInvariant sha256 s) (hphase : ∀ row next, phase ≠ .recorded row next)
    (hw : (s.setPhase worker phase).phases w = .recorded row next) :
    next ≤ s.sequence ∧ ∀ researcherId, s.lastSequence .research researcherId < next := by
  by_cases heq : w = worker
  · subst heq
    rw [setPhase_self] at hw
    exact absurd hw (hphase row next)
  · rw [setPhase_other heq] at hw
    exact h.drawn w row next hw

omit [DecidableEq Digest] in
/-- At the end of a claim no worker is left inside. -/
lemma idle_of_end (h : FairInvariant sha256 s) (hphase : s.phases worker ≠ .idle) (w : SessionId) :
    (s.setPhase worker .idle).phases w = .idle := by
  by_cases heq : w = worker
  · subst heq
    rw [setPhase_self]
  · rw [setPhase_other heq]
    exact h.others_idle hphase heq

theorem fairInvariant_step (h : FairInvariant sha256 s)
    (hstep : FairStep sha256 leaseSeconds s event t) : FairInvariant sha256 t := by
  cases hstep with
  | transact session hother hlock hstep => exact ⟨h.rows.step hstep, h.lock, h.past, h.drawn⟩
  | lockRow | unlockRow => exact ⟨h.rows, h.lock, h.past, h.drawn⟩
  | batchOpportunity researcherId value next hvalue hnext =>
    refine ⟨h.rows, h.lock, ?_, ?_⟩
    · intro B
      simp only [recordExecutionOpportunity_batch]
      exact (h.past B).trans (WithBot.coe_le_coe.mpr hnext)
    · intro w row drawn hw
      obtain ⟨hle, hlt⟩ := h.drawn w row drawn hw
      simp only [recordExecutionOpportunity_batch]
      exact ⟨hle.trans hnext, hlt⟩
  | acquire hidle hfree =>
    exact ⟨h.rows, fun w => lock_setPhase h rfl (.inl hfree), h.past,
      fun w row next => drawn_setPhase h (fun _ _ => by simp)⟩
  | @query worker hphase =>
    have hbusy : s.phases worker ≠ .idle := hphase.trans_ne (by simp)
    exact ⟨h.rows, fun w => lock_setPhase h (h.lock _ hbusy) (.inr hbusy), h.past,
      fun w row next => drawn_setPhase h (fun _ _ => by simp)⟩
  | @skip worker row rows hphase hskip =>
    have hbusy : s.phases worker ≠ .idle := hphase.trans_ne (by simp)
    exact ⟨h.rows, fun w => lock_setPhase h (h.lock _ hbusy) (.inr hbusy), h.past,
      fun w row next => drawn_setPhase h (fun _ _ => by simp)⟩
  | @select worker row rows hphase hfree =>
    have hbusy : s.phases worker ≠ .idle := hphase.trans_ne (by simp)
    exact ⟨h.rows, fun w => lock_setPhase h (h.lock _ hbusy) (.inr hbusy), h.past,
      fun w row next => drawn_setPhase h (fun _ _ => by simp)⟩
  | @nextval worker row hphase next hnext =>
    have hbusy : s.phases worker ≠ .idle := hphase.trans_ne (by simp)
    have hpast : ∀ B, s.lastSequence .research B < next := fun B =>
      (h.past B).trans_lt (WithBot.coe_lt_coe.mpr hnext)
    refine ⟨h.rows, fun w => lock_setPhase h (h.lock _ hbusy) (.inr hbusy),
      fun B => (hpast B).le, ?_⟩
    intro w other drawn hw
    by_cases heq : w = worker
    · subst heq
      change (s.setPhase w _).phases w = _ at hw
      rw [setPhase_self] at hw
      cases hw
      exact ⟨le_rfl, hpast⟩
    · change (s.setPhase worker _).phases w = _ at hw
      rw [setPhase_other heq, h.others_idle hbusy heq] at hw
      cases hw
  | @opportunity worker row next attemptId pinId through db claim hphase hclaim =>
    have hbusy : s.phases worker ≠ .idle := hphase.trans_ne (by simp)
    obtain ⟨hle, hlt⟩ := h.drawn worker row next hphase
    have hidle := idle_of_end h hbusy
    have hclaimed : Step sha256 leaseSeconds s.world
        (.claim row.runId attemptId pinId through true) (s.world.learn (db, .claimed claim)) := by
      simp [Step, step, hclaim]
    refine ⟨h.rows.step hclaimed, fun w hw => absurd (hidle w) hw, ?_, ?_⟩
    · intro B
      by_cases hB : B = row.researcherId
      · subst hB
        exact (recordExecutionOpportunity_self next).trans_le (WithBot.coe_le_coe.mpr hle)
      · exact (recordExecutionOpportunity_other hB next).trans_le (h.past B)
    · intro w other drawn hw
      cases (hidle w).symm.trans hw
  | @exhausted worker row attemptId pinId through db recovery hphase hclaim =>
    have hbusy : s.phases worker ≠ .idle := hphase.trans_ne (by simp)
    have hidle := idle_of_end h hbusy
    have hclaimed : Step sha256 leaseSeconds s.world
        (.claim row.runId attemptId pinId through true) (s.world.learn (db, .exhausted recovery)) := by
      simp [Step, step, hclaim]
    exact ⟨h.rows.step hclaimed, fun w hw => absurd (hidle w) hw, h.past,
      fun w other drawn hw => by cases (hidle w).symm.trans hw⟩
  | abandon hphase =>
    have hidle := idle_of_end h hphase
    exact ⟨h.rows, fun w hw => absurd (hidle w) hw, h.past,
      fun w other drawn hw => by cases (hidle w).symm.trans hw⟩

theorem fairInvariant_exec {events : List (FairEvent Digest)}
    (hexec : Exec (FairStep sha256 leaseSeconds) FairState.empty events s) :
    FairInvariant sha256 s :=
  hexec.invariant (fun _ _ _ => fairInvariant_step) fairInvariant_empty

/-! ### The choice of a claim -/

omit [DecidableEq Digest] in
lemma mem_candidates {row : Candidate} :
    row ∈ s.candidates ↔ ∃ runId ∈ s.world.db.runOwnership, s.candidate runId = some row := by
  rw [FairState.candidates, List.mem_insertionSort, List.mem_filterMap]

omit [DecidableEq Digest] in
lemma candidates_sorted : s.candidates.Pairwise fun a b => a.key ≤ b.key := by
  have htotal : Std.Total fun a b : Candidate => a.key ≤ b.key := ⟨fun a b => le_total _ _⟩
  have htrans : IsTrans Candidate fun a b => a.key ≤ b.key := ⟨fun _ _ _ => le_trans⟩
  exact List.pairwise_insertionSort _ _

omit [DecidableEq Digest] in
/-- What the rows of the query say about their researchers. -/
lemma candidate_facts {row : Candidate} (hrow : row ∈ s.candidates) :
    row.occupiedSlots = occupiedSlots s.world.db row.researcherId ∧
      row.lastSequence = s.lastSequence .research row.researcherId := by
  obtain ⟨runId, -, hcandidate⟩ := mem_candidates.mp hrow
  obtain ⟨run, -, rfl⟩ := Option.map_eq_some_iff.mp hcandidate
  exact ⟨rfl, rfl⟩

omit [DecidableEq Digest] in
/-- Every claimable Run is among the rows. -/
lemma claimable_mem_candidates {runId : RunId} {run : RunRow Digest} (h : FairInvariant sha256 s)
    (hrun : claimableRun s.world.db runId = some run) :
    ∃ row ∈ s.candidates, row.runId = runId ∧ row.researcherId = run.researcherId := by
  have hpresent : (s.world.db.tables runId).run = some run := (Option.filter_eq_some_iff.mp hrun).1
  have hcandidate : s.candidate runId = some ⟨run.researcherId, runId,
      occupiedSlots s.world.db run.researcherId, s.lastSequence .research run.researcherId,
      s.createdAt runId⟩ := by
    rw [FairState.candidate, hrun, Option.map_some]
  exact ⟨_, mem_candidates.mpr ⟨runId, h.rows.owned hpresent, hcandidate⟩, rfl, rfl⟩

omit [DecidableEq Digest] in
/-- The order goes by the slots first, and by the history next. -/
lemma key_le_iff {a b : Candidate} (h : a.key ≤ b.key) :
    a.occupiedSlots < b.occupiedSlots ∨
      a.occupiedSlots = b.occupiedSlots ∧ a.lastSequence ≤ b.lastSequence := by
  rcases Prod.Lex.toLex_le_toLex.mp h with hlt | ⟨heq, hrest⟩
  · exact .inl hlt
  · rcases Prod.Lex.toLex_le_toLex.mp hrest with hlt | ⟨heq', -⟩
    · exact .inr ⟨heq, hlt.le⟩
    · exact .inr ⟨heq, heq'.le⟩

/-- The Run is claimable, and not locked, while the worker goes through the rows. -/
def Offered (worker : SessionId) (runId : RunId) (s : FairState Digest) : Prop :=
  ∀ rows, s.phases worker = .selecting rows →
    s.rowLocks runId = none ∧ claimableRun s.world.db runId ≠ none

/-- What a worker has chosen, or will choose, does not come after an offered row. -/
def Chooses (rows : List Candidate) (offered : Candidate) : ClaimPhase → Prop
  | .idle | .fenced => True
  | .selecting left => left ⊆ rows ∧ left.Pairwise (fun a b => a.key ≤ b.key) ∧ offered ∈ left
  | .selected row | .recorded row _ => row ∈ rows ∧ row.key ≤ offered.key

lemma chooses_step {rows : List Candidate} {offered : Candidate}
    (hstep : FairStep sha256 leaseSeconds s event t) (hquery : event ≠ .query worker)
    (hoffered : Offered worker offered.runId s) (h : Chooses rows offered (s.phases worker)) :
    Chooses rows offered (t.phases worker) := by
  have hmove := phaseMove_of_step hstep worker
  generalize t.phases worker = phase at hmove
  cases hmove with
  | keep => exact h
  | finish | acquire => trivial
  | query hevent => exact absurd hevent hquery
  | @skip row left hphase hskip =>
    rw [hphase] at h
    obtain ⟨hsub, hsorted, hmem⟩ := h
    obtain ⟨hfree, hclaimable⟩ := hoffered _ hphase
    have hne : offered ≠ row := by
      rintro rfl
      rcases hskip with hlocked | hgone
      · exact hlocked hfree
      · exact hclaimable hgone
    exact ⟨fun other hother => hsub (List.mem_cons_of_mem _ hother), hsorted.of_cons,
      List.mem_of_ne_of_mem hne hmem⟩
  | @select row left hphase =>
    rw [hphase] at h
    obtain ⟨hsub, hsorted, hmem⟩ := h
    refine ⟨hsub List.mem_cons_self, ?_⟩
    rcases List.mem_cons.mp hmem with rfl | hmem
    · exact le_rfl
    · exact List.rel_of_pairwise_cons hsorted hmem
  | nextval hphase next =>
    rw [hphase] at h
    exact h

/-- A claim of a query that offered a row gives the opportunity to no later row. -/
lemma opportunity_of_query {c : Candidate} {claiming : List (FairEvent Digest)}
    {s₂ t₂ s₃ t₃ : FairState Digest} (hc : c ∈ s₂.candidates)
    (hquery : FairStep sha256 leaseSeconds s₂ (.query worker) t₂)
    (hclaiming : Exec (restrict (FairStep sha256 leaseSeconds) fun s event =>
      event ≠ .query worker ∧ Offered worker c.runId s) t₂ claiming s₃)
    (hsecond : FairStep sha256 leaseSeconds s₃ (.opportunity worker A) t₃) :
    ∃ row ∈ s₂.candidates, row.researcherId = A ∧ row.key ≤ c.key := by
  have hstart : Chooses s₂.candidates c (t₂.phases worker) := by
    cases hquery with
    | query hphase =>
      rw [setPhase_self]
      exact ⟨fun _ => id, candidates_sorted, hc⟩
  have hchosen : Chooses s₂.candidates c (s₃.phases worker) := by
    apply hclaiming.invariant (I := fun s => Chooses s₂.candidates c (s.phases worker)) _ hstart
    intro s event t h ⟨hstep, hevent, hoffered⟩
    exact chooses_step hstep hevent hoffered h
  cases hsecond with
  | opportunity hphase hclaim =>
    rw [hphase] at hchosen
    exact ⟨_, hchosen.1, rfl, hchosen.2⟩

/-- An opportunity is the latest of all. -/
lemma latest_of_opportunity (h : FairInvariant sha256 s)
    (hstep : FairStep sha256 leaseSeconds s event t) (hA : event.opportunityOf = some A)
    (hB : B ≠ A) : t.lastSequence .research B < t.lastSequence .research A := by
  cases hstep with
  | opportunity hphase hclaim =>
    cases hA
    have hlt := (h.drawn _ _ _ hphase).2 B
    refine (recordExecutionOpportunity_other hB _).trans_lt (hlt.trans_eq ?_)
    exact (recordExecutionOpportunity_self _).symm
  | _ => cases hA

/-- Between two consecutive execution opportunities of a researcher, the first and the one of the
claim that queries last, every other researcher has had one who has a claimable Run that is not
locked and who occupies no more slots at the second claim. -/
theorem fair_claiming {before between claiming : List (FairEvent Digest)}
    {s₁ t₁ s₂ t₂ s₃ t₃ : FairState Digest} {first : FairEvent Digest}
    {runId : RunId} {run : RunRow Digest}
    (hbefore : Exec (FairStep sha256 leaseSeconds) FairState.empty before s₁)
    (hfirst : FairStep sha256 leaseSeconds s₁ first t₁) (hA : first.opportunityOf = some A)
    (hbetween : Exec (FairStep sha256 leaseSeconds) t₁ between s₂)
    (hconsecutive : ∀ event ∈ between, event.opportunityOf ≠ some A)
    (hquery : FairStep sha256 leaseSeconds s₂ (.query worker) t₂)
    (hclaiming : Exec (restrict (FairStep sha256 leaseSeconds) fun s event =>
      event ≠ .query worker ∧ Offered worker runId s) t₂ claiming s₃)
    (hsecond : FairStep sha256 leaseSeconds s₃ (.opportunity worker A) t₃)
    (hrun : claimableRun s₂.world.db runId = some run) (hB : run.researcherId ≠ A)
    (hslots : occupiedSlots s₂.world.db run.researcherId ≤ occupiedSlots s₂.world.db A) :
    ∃ event ∈ between, event.opportunityOf = some run.researcherId := by
  have hinv₁ := fairInvariant_exec hbefore
  have hinv₂ : FairInvariant sha256 s₂ :=
    hbetween.invariant (fun _ _ _ => fairInvariant_step) (fairInvariant_step hinv₁ hfirst)
  obtain ⟨offered, hoffered, rfl, hresearcher⟩ := claimable_mem_candidates hinv₂ hrun
  obtain ⟨chosen, hchosen, hchosenA, hkey⟩ := opportunity_of_query hoffered hquery hclaiming hsecond
  obtain ⟨hoccupiedA, hhistoryA⟩ := candidate_facts hchosen
  obtain ⟨hoccupiedB, hhistoryB⟩ := candidate_facts hoffered
  rw [hchosenA] at hoccupiedA hhistoryA
  rw [hresearcher] at hoccupiedB hhistoryB
  -- The slots do not decide, so the history does.
  have hhistory : s₂.lastSequence .research A ≤ s₂.lastSequence .research run.researcherId := by
    rcases key_le_iff hkey with hlt | ⟨-, hle⟩
    · omega
    · rwa [hhistoryA, hhistoryB] at hle
  by_contra hnone
  have hnone : ∀ event ∈ between, event.opportunityOf ≠ some run.researcherId :=
    fun event hmem heq => hnone ⟨event, hmem, heq⟩
  have hkeptA := lastSequence_of_exec hbetween hconsecutive
  have hkeptB := lastSequence_of_exec hbetween hnone
  rw [hkeptA, hkeptB] at hhistory
  exact absurd (latest_of_opportunity hinv₁ hfirst hA hB) (not_lt.mpr hhistory)

/-! ### A claim that nothing interrupts -/

/-- The state after a claim, when nothing else has happened meanwhile. -/
def FairState.give (s : FairState Digest) (row : Candidate) (next : Nat)
    (world : World Digest) : FairState Digest :=
  { s.recordExecutionOpportunity .research row.researcherId next with
    world := world
    sequence := next }

/-- A claim that runs alone, while a Run is offered. -/
def ClaimsAlone (sha256 : Document Digest → Digest) (leaseSeconds : Nat) (s : FairState Digest)
    (worker : SessionId) (runId : RunId) (A : ResearcherId) (t : FairState Digest) : Prop :=
  ∃ acquired queried recorded, FairStep sha256 leaseSeconds s (.work worker) acquired ∧
    acquired.world = s.world ∧
    FairStep sha256 leaseSeconds acquired (.query worker) queried ∧
    Exec (restrict (FairStep sha256 leaseSeconds) fun s event =>
      event ≠ .query worker ∧ Offered worker runId s) queried [.work worker, .work worker]
      recorded ∧
    FairStep sha256 leaseSeconds recorded (.opportunity worker A) t

/-- The first of the candidates gets the opportunity. -/
lemma claimsAlone {runId : RunId} {row : Candidate} {rows : List Candidate} {next : Nat}
    {db : Database Digest} {claim : ResearchRunExecutionClaim} (attemptId : AttemptId)
    (pinId : PinId) (through : Session) (hidle : s.phases worker = .idle)
    (hlock : s.claimLock = none) (hrows : s.candidates = row :: rows)
    (hfree : s.rowLocks row.runId = none) (hheld : ∀ runId, s.rowLocks runId ≠ some worker)
    (hnext : s.sequence < next)
    (hclaim : claimNext s.world.db row.runId attemptId pinId through true leaseSeconds =
      .ok (db, .claimed claim))
    (hoffer : s.rowLocks runId = none ∧ claimableRun s.world.db runId ≠ none) :
    ClaimsAlone sha256 leaseSeconds s worker runId row.researcherId
      (s.give row next (s.world.learn (db, .claimed claim))) := by
  let acquired := { s.setPhase worker .fenced with claimLock := some worker }
  let queried := acquired.setPhase worker (.selecting (row :: rows))
  let selected := { queried.setPhase worker (.selected row) with
    rowLocks := Function.update s.rowLocks row.runId (some worker) }
  let recorded := { selected.setPhase worker (.recorded row next) with sequence := next }
  have hqueried : FairStep sha256 leaseSeconds acquired (.query worker) queried := by
    have hcandidates : acquired.candidates = row :: rows := hrows
    have hstep : FairStep sha256 leaseSeconds acquired (.query worker)
      (acquired.setPhase worker (.selecting acquired.candidates)) := .query (setPhase_self _)
    rwa [hcandidates] at hstep
  have hselected : FairStep sha256 leaseSeconds queried (.work worker) selected :=
    .select (setPhase_self _) hfree
  have hrecorded : FairStep sha256 leaseSeconds selected (.work worker) recorded := by
    have hphase : selected.phases worker = .selected row := setPhase_self _
    exact .nextval hphase next hnext
  have hphases : Function.update recorded.phases worker .idle = s.phases := by
    funext w
    by_cases hw : w = worker
    · rw [hw, Function.update_self, hidle]
    · simp [recorded, selected, queried, acquired, FairState.setPhase, hw]
  have hlocks : (fun runId => if recorded.rowLocks runId = some worker then none
      else recorded.rowLocks runId) = s.rowLocks := by
    funext runId
    by_cases hrun : runId = row.runId
    · simp [recorded, selected, FairState.setPhase, hrun, hfree]
    · simp [recorded, selected, FairState.setPhase, hrun, hheld runId]
  have hend : ({ recorded with world := s.world.learn (db, .claimed claim)
      }.recordExecutionOpportunity .research row.researcherId next).endClaim worker =
        s.give row next (s.world.learn (db, .claimed claim)) :=
    FairState.mk.injEq .. |>.mpr ⟨rfl, rfl, rfl, rfl, hlock.symm, hlocks, hphases⟩
  have hgiven : FairStep sha256 leaseSeconds recorded (.opportunity worker row.researcherId)
      (s.give row next (s.world.learn (db, .claimed claim))) := by
    have hphase : recorded.phases worker = .recorded row next := setPhase_self _
    rw [← hend]
    exact .opportunity hphase hclaim
  have hoffered : Offered worker runId selected := by
    intro rows hphase
    cases (setPhase_self (s := queried) (.selected row)).symm.trans hphase
  have hwork : FairEvent.work worker ≠ (.query worker : FairEvent Digest) := nofun
  exact ⟨acquired, queried, recorded, .acquire hidle hlock, rfl, hqueried,
    .cons ⟨hselected, hwork, fun _ _ => hoffer⟩ <| .single ⟨hrecorded, hwork, hoffered⟩, hgiven⟩

lemma exec_of_restrict {allowed : FairState Digest → FairEvent Digest → Prop}
    {events : List (FairEvent Digest)}
    (h : Exec (restrict (FairStep sha256 leaseSeconds) allowed) s events t) :
    Exec (FairStep sha256 leaseSeconds) s events t :=
  h.mono fun _ _ _ => And.left

end History

/-! ### A sample run -/

/-- A researcher has the Run 10 and another one the Run 11. Every lease expires at once. -/
def fairAdmitted : FairState Nat :=
  { (FairState.empty : FairState Nat) with
    world := sampleWorld [.admitRun 10 1 sampleInput .ordinary, .admitRun 11 2 sampleInput .ordinary]
    createdAt := Function.update (Function.update (fun _ => 0) 10 0) 11 0 }

def sampleClaimed (w : World Nat) (runId : RunId) (attemptId : AttemptId) : World Nat :=
  (step sampleSha256 0 w (.claim runId attemptId attemptId 20240102 true)).toOption.getD w

def fairOnce : FairState Nat :=
  fairAdmitted.give ⟨1, 10, 0, ⊥, 0⟩ 1 (sampleClaimed fairAdmitted.world 10 20)

def fairTwice : FairState Nat :=
  fairOnce.give ⟨2, 11, 0, ⊥, 0⟩ 2 (sampleClaimed fairOnce.world 11 21)

lemma fairAdmitted_candidates :
    fairAdmitted.candidates = [⟨1, 10, 0, ⊥, 0⟩, ⟨2, 11, 0, ⊥, 0⟩] := by
  decide

lemma fairOnce_candidates :
    fairOnce.candidates = [⟨2, 11, 0, ⊥, 0⟩, ⟨1, 10, 0, (1 : Nat), 0⟩] := by
  decide

lemma fairTwice_candidates :
    fairTwice.candidates = [⟨1, 10, 0, (1 : Nat), 0⟩, ⟨2, 11, 0, (2 : Nat), 0⟩] := by
  decide

lemma fairOnce_given : ClaimsAlone sampleSha256 0 fairAdmitted 0 11 1 fairOnce :=
  claimsAlone 20 20 20240102 rfl rfl fairAdmitted_candidates rfl (fun _ => nofun) (by decide) rfl
    ⟨rfl, nofun⟩

lemma fairTwice_given : ClaimsAlone sampleSha256 0 fairOnce 0 11 2 fairTwice :=
  claimsAlone 21 21 20240102 rfl rfl fairOnce_candidates rfl (fun _ => nofun) (by decide) rfl
    ⟨rfl, nofun⟩

lemma fairThrice_given : ∃ t, ClaimsAlone sampleSha256 0 fairTwice 0 11 1 t :=
  ⟨_, claimsAlone 22 22 20240102 rfl rfl fairTwice_candidates rfl (fun _ => nofun)
    (by decide : 2 < 3) rfl ⟨rfl, nofun⟩⟩

/-- The second researcher has its turn between the first two of the first one. -/
theorem fair_claiming_sample : ∃ event ∈ ([.work 0, .query 0, .work 0, .work 0, .opportunity 0 2,
    .work 0] : List (FairEvent Nat)), event.opportunityOf = some 2 := by
  have hadmitted : Exec (FairStep sampleSha256 0) FairState.empty
      [.transact 9 (.admitRun 10 1 sampleInput .ordinary),
        .transact 9 (.admitRun 11 2 sampleInput .ordinary)] fairAdmitted :=
    .cons (.transact 9 rfl (by simp [FairState.empty]) rfl) <|
      .single (.transact 9 rfl (by simp [FairState.empty]) rfl)
  obtain ⟨_, _, _, hacquire₁, -, hquery₁, hclaiming₁, hgiven₁⟩ := fairOnce_given
  obtain ⟨_, _, _, hacquire₂, -, hquery₂, hclaiming₂, hgiven₂⟩ := fairTwice_given
  obtain ⟨_, _, _, _, hacquire₃, hworld, hquery₃, hclaiming₃, hgiven₃⟩ := fairThrice_given
  have hbefore := hadmitted.trans (.cons hacquire₁ <| .cons hquery₁ <| exec_of_restrict hclaiming₁)
  have hbetween := Exec.cons hacquire₂ <| .cons hquery₂ <|
    (exec_of_restrict hclaiming₂).trans <| .cons hgiven₂ <| .single hacquire₃
  have hrun : claimableRun fairTwice.world.db 11 = some _ := rfl
  rw [← hworld] at hrun
  exact fair_claiming hbefore hgiven₁ rfl hbetween (by decide) hquery₃ hclaiming₃ hgiven₃ hrun
    (by decide) (hworld ▸ by decide)

end ThesisTrace.ResearchRun
