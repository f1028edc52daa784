import Mathlib.Data.List.Sort
import ThesisTrace.Library.Slices
import ThesisTrace.ResearchRun.Capacity

/-!
# Chunks of a Research Run

`plan_research_chunks` cuts the calculation sessions of a Run into chunks of as many sessions as the
capacity allows. The Run's warm-up, the sessions before its first Research Session, leads the plan:
a chunk after it has no warm-up of its own. When a chunk is executed, the sessions before its first
Research Session are read again.
-/

namespace ThesisTrace.ResearchRun.Planning
open Transaction

variable {Session : Type}

/-! ### The plan -/

structure ResearchExecutionChunk (Session : Type) where
  ordinal : ℕ
  firstSession : Session
  lastSession : Session
  sessionCount : ℤ
  warmupSessionCount : ℤ
  researchSessionCount : ℤ
deriving DecidableEq, Repr

structure ResearchExecutionPlan (Session : Type) where
  executionMemoryBytes : ℤ
  chunkTimeTargetSeconds : ℤ
  chunkSessionCount : ℤ
  timeTargetExceeded : Bool
  estimatedPeakBytes : ℤ
  estimatedChunkWork : ℤ
  maximumUniverseCardinality : ℤ
  calculationSessions : List Session
  researchSessionOffset : ℤ
  researchSessionCount : ℤ
  chunks : List (ResearchExecutionChunk Session)
deriving DecidableEq, Repr

inductive PlanningError where
  /-- "Research calculation sessions must be ordered" -/
  | sessions
  /-- "Research Period offset is outside calculation sessions" -/
  | offset
  | capacity (error : CapacityError)
  /-- `selected[0]` of an empty slice. -/
  | index
deriving DecidableEq, Repr

/-- One round of the loop over the starts of the chunks. -/
def plannedChunk (sessions : List Session) (offset : ℤ) (count : ℕ) (k : ℕ) :
    Except PlanningError (ResearchExecutionChunk Session) := do
  let start := k * count
  let selected := Slices.slice count sessions k
  let warmupCount : ℤ := max 0 (min selected.length (offset - start))
  let first ← found selected.head? .index
  let last ← found selected.getLast? .index
  pure {
    ordinal := k + 1
    firstSession := first
    lastSession := last
    sessionCount := selected.length
    warmupSessionCount := warmupCount
    researchSessionCount := selected.length - warmupCount }

def planResearchChunks [LinearOrder Session] (sessions : List Session) (offset : ℤ)
    (w : Workload) (maximum : ℤ) : Except PlanningError (ResearchExecutionPlan Session) := do
  require (sessions ≠ [] ∧ sessions.Pairwise (· ≤ ·)) .sessions
  require (0 ≤ offset ∧ offset < sessions.length) .offset
  let capacity ← (planSessionCapacity { w with additionalLiveColumns := 0 } maximum).mapError
    PlanningError.capacity
  let count := capacity.sessionCount.toNat
  let chunks ← (List.range (Slices.count count sessions)).mapM (plannedChunk sessions offset count)
  pure {
    executionMemoryBytes := w.executionMemoryBytes
    chunkTimeTargetSeconds := chunkTimeTargetSeconds
    chunkSessionCount := capacity.sessionCount
    timeTargetExceeded := capacity.timeTargetExceeded
    estimatedPeakBytes := capacity.estimatedPeakBytes
    estimatedChunkWork := capacity.estimatedWork
    maximumUniverseCardinality := w.maximumUniverseCardinality
    calculationSessions := sessions
    researchSessionOffset := offset
    researchSessionCount := sessions.length - offset
    chunks := chunks }

/-! ### The execution of a chunk -/

section Execution

variable [LinearOrder Session]

/-- The frozen plan is the part of the calendar that it was made for. -/
def planMatchesCalendar (calendar : List Session) (start final : Session)
    (plan : ResearchExecutionPlan Session) : Prop :=
  ∃ i j, calendar.idxOf? start = some i ∧ calendar.idxOf? final = some j ∧
    plan.researchSessionOffset ≤ i ∧
    (calendar.take (j + 1)).drop (i - plan.researchSessionOffset.toNat) = plan.calculationSessions

/-- The sessions of a chunk: those of the plan between its first and its last one. -/
def chunkSessions (plan : ResearchExecutionPlan Session)
    (chunk : ResearchExecutionChunk Session) : List Session :=
  plan.calculationSessions.filter fun session =>
    chunk.firstSession ≤ session ∧ session ≤ chunk.lastSession

def researchSessions (plan : ResearchExecutionPlan Session) (start final : Session)
    (chunk : ResearchExecutionChunk Session) : List Session :=
  (chunkSessions plan chunk).filter fun session => start ≤ session ∧ session ≤ final

/-- The sessions that the execution of a chunk reads, none when it is all warm-up. -/
def contextSessions (calendar : List Session) (effectiveLookback : ℕ) (research : List Session) :
    Option (List Session) := do
  let first ← research.head?
  let last ← research.getLast?
  let i ← calendar.idxOf? first
  let j ← calendar.idxOf? last
  let contextSessionCount := max effectiveLookback (max 21 2)
  pure ((calendar.take (j + 1)).drop (i - contextSessionCount))

end Execution

/-! ### The chunks of a plan -/

/-- A chunk that is made of `warmup` sessions followed by `research` sessions. -/
structure MadeOf (warmup research : List Session) (chunk : ResearchExecutionChunk Session) :
    Prop where
  first : (warmup ++ research).head? = some chunk.firstSession
  last : (warmup ++ research).getLast? = some chunk.lastSession
  sessions : chunk.sessionCount = (warmup ++ research).length
  warmups : chunk.warmupSessionCount = warmup.length
  researches : chunk.researchSessionCount = research.length

/-- The warm-up part of the `k`-th slice. -/
def warmupPart (sessions : List Session) (offset count k : ℕ) : List Session :=
  (Slices.slice count sessions k).take (offset - k * count)

def researchPart (sessions : List Session) (offset count k : ℕ) : List Session :=
  (Slices.slice count sessions k).drop (offset - k * count)

lemma warmupPart_append_researchPart (sessions : List Session) (offset count k : ℕ) :
    warmupPart sessions offset count k ++ researchPart sessions offset count k =
      Slices.slice count sessions k :=
  List.take_append_drop _ _

/-- One round plans the slice at its start. -/
lemma plannedChunk_ok {sessions : List Session} {offset count k : ℕ} (hcount : 0 < count)
    (hk : k < Slices.count count sessions) :
    ∃ chunk, plannedChunk sessions offset count k = .ok chunk ∧ chunk.ordinal = k + 1 ∧
      MadeOf (warmupPart sessions offset count k) (researchPart sessions offset count k) chunk := by
  have hne : Slices.slice count sessions k ≠ [] := Slices.slice_ne_nil hcount hk
  have hfirst := List.head?_eq_some_head hne
  have hlast := List.getLast?_eq_some_getLast hne
  simp only [plannedChunk, bind_ok_iff, found_ok_iff, pure_ok_iff]
  refine ⟨_, ⟨_, hfirst, _, hlast, rfl⟩, rfl, ?_, ?_, ?_, ?_, ?_⟩
  · rw [warmupPart_append_researchPart, hfirst]
  · rw [warmupPart_append_researchPart, hlast]
  · rw [warmupPart_append_researchPart]
  · simp only [warmupPart, List.length_take]
    omega
  · simp only [researchPart, List.length_drop]
    omega

/-- The loop never fails: every slice that it cuts has a session. -/
lemma plannedChunks_ok (sessions : List Session) (offset : ℕ) {count : ℕ} (hcount : 0 < count) :
    ∃ chunks, (List.range (Slices.count count sessions)).mapM
        (plannedChunk sessions offset count) = .ok chunks ∧
      List.Forall₂ (fun k chunk => chunk.ordinal = k + 1 ∧
        MadeOf (warmupPart sessions offset count k) (researchPart sessions offset count k) chunk)
        (List.range (Slices.count count sessions)) chunks := by
  apply mapM_exists
  intro k hk
  exact plannedChunk_ok hcount (List.mem_range.mp hk)

variable [LinearOrder Session]

/-- A plan is made exactly of ordered sessions, an offset among them and a capacity. -/
lemma planResearchChunks_ok {sessions : List Session} {offset maximum : ℤ} {w : Workload}
    {plan : ResearchExecutionPlan Session}
    (h : planResearchChunks sessions offset w maximum = .ok plan) :
    sessions ≠ [] ∧ 0 ≤ offset ∧ offset < sessions.length ∧
      planSessionCapacity { w with additionalLiveColumns := 0 } maximum = .ok {
        sessionCount := plan.chunkSessionCount
        timeTargetExceeded := plan.timeTargetExceeded
        estimatedPeakBytes := plan.estimatedPeakBytes
        estimatedWork := plan.estimatedChunkWork } ∧
      plan.calculationSessions = sessions ∧ plan.researchSessionOffset = offset ∧
      0 < plan.chunkSessionCount.toNat ∧
      List.Forall₂ (fun k chunk => chunk.ordinal = k + 1 ∧
        MadeOf (warmupPart sessions offset.toNat plan.chunkSessionCount.toNat k)
          (researchPart sessions offset.toNat plan.chunkSessionCount.toNat k) chunk)
        (List.range (Slices.count plan.chunkSessionCount.toNat sessions)) plan.chunks := by
  simp only [planResearchChunks, bind_ok_iff, require_ok_iff, pure_ok_iff, mapError_ok_iff] at h
  obtain ⟨_, ⟨hne, -⟩, _, ⟨hzero, hlt⟩, capacity, hcapacity, chunks, hchunks, rfl⟩ := h
  have hone := (planSessionCapacity_optimal hcapacity).1
  have hcount : 0 < capacity.sessionCount.toNat := by omega
  obtain ⟨planned, hplanned, hparts⟩ :=
    plannedChunks_ok sessions offset.toNat hcount
  rw [Int.toNat_of_nonneg hzero, hchunks, Except.ok.injEq] at hplanned
  subst hplanned
  exact ⟨hne, hzero, hlt, hcapacity, rfl, rfl, hcount, hparts⟩

/-! ### What the execution of a chunk reads -/

lemma idxOf?_of_sorted {before after : List Session} {session : Session}
    (hsorted : (before ++ session :: after).Pairwise (· < ·)) :
    (before ++ session :: after).idxOf? session = some before.length := by
  rw [List.idxOf?_eq_some_iff]
  have hbefore := (List.pairwise_append.mp hsorted).2.2
  refine ⟨by simp, by simp, ?_⟩
  intro j hj
  rw [List.getElem_append_left hj]
  exact (hbefore _ (List.getElem_mem hj) session List.mem_cons_self).ne

/-- In a calendar the sessions of a stretch are read together with those before it. -/
lemma contextSessions_of_sorted {before research after : List Session} {effectiveLookback : ℕ}
    (hsorted : (before ++ research ++ after).Pairwise (· < ·)) (hne : research ≠ []) :
    contextSessions (before ++ research ++ after) effectiveLookback research =
      some (before.drop (before.length - max effectiveLookback 21) ++ research) := by
  obtain ⟨first, rest, hfirst⟩ := List.exists_cons_of_ne_nil hne
  obtain ⟨init, last, hlast⟩ := (List.eq_nil_or_concat' research).resolve_left hne
  have hi : (before ++ research ++ after).idxOf? first = some before.length := by
    rw [hfirst, List.append_assoc, List.cons_append] at hsorted ⊢
    exact idxOf?_of_sorted hsorted
  have hj : (before ++ research ++ after).idxOf? last = some (before ++ init).length := by
    rw [hlast, ← List.append_assoc before, List.append_assoc _ [last]] at hsorted ⊢
    exact idxOf?_of_sorted hsorted
  have hhead : research.head? = some first := by
    rw [hfirst]
    rfl
  have hend : research.getLast? = some last := by
    rw [hlast, List.getLast?_append]
    rfl
  have htake : (before ++ research ++ after).take ((before ++ init).length + 1) =
      before ++ research := by
    apply List.take_left'
    rw [hlast]
    simp only [List.length_append, List.length_singleton]
    omega
  have hle : before.length - max effectiveLookback (max 21 2) ≤ before.length := Nat.sub_le _ _
  rw [contextSessions, hhead, hend]
  change ((before ++ research ++ after).idxOf? first >>= fun i =>
    (before ++ research ++ after).idxOf? last >>= fun j => some _) = _
  rw [hi, hj]
  change some (((before ++ research ++ after).take ((before ++ init).length + 1)).drop _) = _
  rw [htake, List.drop_append_of_le_length hle]
  rfl

/-- The calendar splits the planned sessions at the start of the Research Period. -/
lemma planMatchesCalendar_split {calendar : List Session} {start final : Session}
    {plan : ResearchExecutionPlan Session} (hsorted : calendar.Pairwise (· < ·))
    (hplan : planMatchesCalendar calendar start final plan)
    (hoffset : 0 ≤ plan.researchSessionOffset) :
    plan.calculationSessions <:+: calendar ∧
      (∀ session ∈ plan.calculationSessions, session ≤ final) ∧
      (∀ session ∈ plan.calculationSessions.take plan.researchSessionOffset.toNat,
        session < start) ∧
      ∀ session ∈ plan.calculationSessions.drop plan.researchSessionOffset.toNat,
        start ≤ session := by
  obtain ⟨i, j, hi, hj, hle, hsessions⟩ := hplan
  obtain ⟨hilt, hstart, -⟩ := List.idxOf?_eq_some_iff.mp hi
  obtain ⟨hjlt, hfinal, -⟩ := List.idxOf?_eq_some_iff.mp hj
  have hsplit := hsorted
  rw [← List.take_append_drop i calendar, List.drop_eq_getElem_cons hilt, hstart,
    List.pairwise_append, List.pairwise_cons] at hsplit
  obtain ⟨-, ⟨hafter, -⟩, hbefore⟩ := hsplit
  rw [← hsessions]
  refine ⟨?_, ?_, ?_, ?_⟩
  · exact (List.drop_suffix _ _).isInfix.trans (List.take_prefix _ _).isInfix
  · intro session hmem
    have hmem := List.mem_of_mem_drop hmem
    have htake := hsorted.sublist (List.take_sublist (j + 1) calendar)
    rw [List.take_succ_eq_append_getElem hjlt, hfinal] at hmem htake
    rcases List.mem_append.mp hmem with hmem | hmem
    · exact ((List.pairwise_append.mp htake).2.2 session hmem final (by simp)).le
    · exact (List.mem_singleton.mp hmem).le
  · intro session hmem
    have hindex : i - plan.researchSessionOffset.toNat + plan.researchSessionOffset.toNat = i := by
      omega
    rw [List.take_drop, hindex, List.take_take, Nat.min_comm, ← List.take_take] at hmem
    exact hbefore session (List.mem_of_mem_take (List.mem_of_mem_drop hmem)) start
      List.mem_cons_self
  · intro session hmem
    have hindex : i - plan.researchSessionOffset.toNat + plan.researchSessionOffset.toNat = i := by
      omega
    rw [List.drop_drop, hindex, List.drop_take, List.drop_eq_getElem_cons hilt, hstart] at hmem
    rcases List.mem_cons.mp (List.mem_of_mem_take hmem) with rfl | hmem
    · exact le_refl _
    · exact (hafter session hmem).le

/-- A chunk is executed over the research sessions that the plan counts in it. -/
lemma researchSessions_eq {plan : ResearchExecutionPlan Session} {start final : Session}
    {chunk : ResearchExecutionChunk Session} {offset count k : ℕ}
    (hsorted : plan.calculationSessions.Pairwise (· < ·))
    (hmade : MadeOf (warmupPart plan.calculationSessions offset count k)
      (researchPart plan.calculationSessions offset count k) chunk)
    (hfinal : ∀ session ∈ plan.calculationSessions, session ≤ final)
    (hbefore : ∀ session ∈ plan.calculationSessions.take offset, session < start)
    (hafter : ∀ session ∈ plan.calculationSessions.drop offset, start ≤ session) :
    chunkSessions plan chunk = Slices.slice count plan.calculationSessions k ∧
      researchSessions plan start final chunk =
        researchPart plan.calculationSessions offset count k := by
  have hfirst := hmade.first
  have hlast := hmade.last
  rw [warmupPart_append_researchPart] at hfirst hlast
  have hchunk : chunkSessions plan chunk = Slices.slice count plan.calculationSessions k :=
    Slices.filter_slice hsorted hfirst hlast
  have hwarmup : (warmupPart plan.calculationSessions offset count k).filter
      (fun session => start ≤ session ∧ session ≤ final) = [] := by
    rw [List.filter_eq_nil_iff]
    intro session hmem
    have hlt := hbefore session (Slices.mem_of_mem_take_slice hmem)
    simp [hlt]
  have hresearch : (researchPart plan.calculationSessions offset count k).filter
      (fun session => start ≤ session ∧ session ≤ final) =
        researchPart plan.calculationSessions offset count k := by
    rw [List.filter_eq_self]
    intro session hmem
    have hmem := Slices.mem_of_mem_drop_slice hmem
    simp [hafter session hmem, hfinal session (List.mem_of_mem_drop hmem)]
  refine ⟨hchunk, ?_⟩
  rw [researchSessions, hchunk, ← warmupPart_append_researchPart _ offset, List.filter_append,
    hwarmup, hresearch, List.nil_append]

/-! ### The plan as a whole -/

/-- What the plan of a Run is made of: consecutive stretches of its sessions, each with its warm-up
before its research. -/
structure Partitions (sessions : List Session) (offset : ℕ)
    (parts : List (List Session × List Session)) (plan : ResearchExecutionPlan Session) : Prop where
  covered : parts.flatMap (fun part => part.1 ++ part.2) = sessions
  warmups : parts.flatMap Prod.fst = sessions.take offset
  researches : parts.flatMap Prod.snd = sessions.drop offset
  made : List.Forall₂ (fun part chunk => MadeOf part.1 part.2 chunk) parts plan.chunks
  ordinals : plan.chunks.map ResearchExecutionChunk.ordinal = List.range' 1 plan.chunks.length
  sizes : ∀ chunk ∈ plan.chunks, 1 ≤ chunk.sessionCount ∧
    chunk.sessionCount ≤ plan.chunkSessionCount
  full : ∀ chunk ∈ plan.chunks.dropLast, chunk.sessionCount = plan.chunkSessionCount

lemma forall₂_range_getElem {α : Type} {R : ℕ → α → Prop} {n : ℕ} {as : List α}
    (h : List.Forall₂ R (List.range n) as) :
    as.length = n ∧ ∀ k (hk : k < as.length), R k as[k] := by
  obtain ⟨hlength, hget⟩ := List.forall₂_iff_get.mp h
  rw [List.length_range] at hlength
  refine ⟨hlength.symm, ?_⟩
  intro k hk
  have hk' : k < (List.range n).length := by
    rw [List.length_range]
    omega
  simpa using hget k hk' hk

/-- The parts of the chunks, in order. -/
def planParts (sessions : List Session) (offset count : ℕ) : List (List Session × List Session) :=
  (List.range (Slices.count count sessions)).map fun k =>
    (warmupPart sessions offset count k, researchPart sessions offset count k)

theorem planResearchChunks_partitions {sessions : List Session} {offset maximum : ℤ} {w : Workload}
    {plan : ResearchExecutionPlan Session}
    (h : planResearchChunks sessions offset w maximum = .ok plan) :
    Partitions sessions offset.toNat
      (planParts sessions offset.toNat plan.chunkSessionCount.toNat) plan := by
  obtain ⟨-, -, -, -, -, -, hcount, hchunks⟩ := planResearchChunks_ok h
  obtain ⟨hlength, hget⟩ := forall₂_range_getElem hchunks
  have hsize (k : ℕ) (hk : k < plan.chunks.length) : plan.chunks[k].sessionCount =
      (Slices.slice plan.chunkSessionCount.toNat sessions k).length := by
    rw [(hget k hk).2.sessions, warmupPart_append_researchPart]
  refine ⟨?_, ?_, ?_, ?_, ?_, ?_, ?_⟩
  · simp only [planParts, List.flatMap_map, warmupPart_append_researchPart]
    exact Slices.flatMap_slice hcount sessions
  · simp only [planParts, List.flatMap_map, warmupPart]
    rw [Slices.flatMap_slice_take, List.take_of_length_le (Slices.length_le_count_mul hcount _)]
  · simp only [planParts, List.flatMap_map, researchPart]
    rw [Slices.flatMap_slice_drop, List.take_of_length_le (Slices.length_le_count_mul hcount _)]
  · rw [planParts, List.forall₂_map_left_iff]
    exact hchunks.imp fun k chunk hk => hk.2
  · apply List.ext_getElem (by simp)
    intro k hk _
    rw [List.length_map] at hk
    rw [List.getElem_map, (hget k hk).1, List.getElem_range']
    omega
  · intro chunk hchunk
    obtain ⟨k, hk, rfl⟩ := List.getElem_of_mem hchunk
    have hpos := List.length_pos_of_ne_nil (Slices.slice_ne_nil hcount (hlength ▸ hk))
    rw [hsize k hk]
    rw [Slices.length_slice] at hpos ⊢
    omega
  · intro chunk hchunk
    obtain ⟨k, hk, rfl⟩ := List.getElem_of_mem hchunk
    rw [List.length_dropLast] at hk
    have hk' : k < plan.chunks.length := by omega
    rw [List.getElem_dropLast, hsize k hk', Slices.length_slice_of_succ_lt hcount (by omega)]
    omega

/-- A plan is rejected for its memory exactly when one session does not fit. -/
theorem planResearchChunks_rejected_iff {sessions : List Session} {offset maximum : ℤ}
    {w : Workload} : planResearchChunks sessions offset w maximum = .error (.capacity .session) ↔
      (sessions ≠ [] ∧ sessions.Pairwise (· ≤ ·)) ∧ (0 ≤ offset ∧ offset < sessions.length) ∧
      1 ≤ maximum ∧ ∃ bytes,
        estimateSessionPeakBytes 1 { w with additionalLiveColumns := 0 } = .ok bytes ∧
        w.executionMemoryBytes < bytes := by
  have hcapacity := @planSessionCapacity_rejected_iff { w with additionalLiveColumns := 0 } maximum
  constructor
  · intro h
    rcases bind_error h with hsessions | ⟨_, hsessions, h⟩
    · cases (require_error hsessions).2
    rcases bind_error h with hoffset | ⟨_, hoffset, h⟩
    · cases (require_error hoffset).2
    rcases bind_error h with hplan | ⟨capacity, hplan, h⟩
    · refine ⟨require_ok_iff.mp hsessions, require_ok_iff.mp hoffset, hcapacity.mp ?_⟩
      obtain ⟨e, hresult, he⟩ := mapError_error_iff.mp hplan
      cases he
      exact hresult
    · have hone := (planSessionCapacity_optimal (mapError_ok_iff.mp hplan)).1
      obtain ⟨chunks, hchunks, -⟩ := plannedChunks_ok sessions offset.toNat
        (show 0 < capacity.sessionCount.toNat by omega)
      rw [Int.toNat_of_nonneg (require_ok_iff.mp hoffset).1] at hchunks
      rcases bind_error h with hloop | ⟨_, -, hpure⟩
      · rw [hchunks] at hloop
        cases hloop
      · cases hpure
  · rintro ⟨hsessions, hoffset, hrejected⟩
    unfold planResearchChunks
    rw [require_ok_iff (u := ()).mpr hsessions, ok_bind, require_ok_iff (u := ()).mpr hoffset,
      ok_bind, hcapacity.mpr hrejected]
    rfl

/-- What the execution of a chunk reads: its research sessions, led by the sessions of the calendar
before them, as many as the lookback and at least 21, or all of them. -/
def ReadsFrom (calendar : List Session) (effectiveLookback : ℕ) (research : List Session) : Prop :=
  ∃ earlier warmup later, calendar = earlier ++ warmup ++ research ++ later ∧
    contextSessions calendar effectiveLookback research = some (warmup ++ research) ∧
    (warmup.length = max effectiveLookback 21 ∨
      earlier = [] ∧ warmup.length < max effectiveLookback 21)

lemma readsFrom_of_infix {calendar research : List Session} {effectiveLookback : ℕ}
    (hsorted : calendar.Pairwise (· < ·)) (hrun : research <:+: calendar) (hne : research ≠ []) :
    ReadsFrom calendar effectiveLookback research := by
  obtain ⟨before, later, rfl⟩ := hrun
  refine ⟨before.take (before.length - max effectiveLookback 21),
    before.drop (before.length - max effectiveLookback 21), later, ?_, ?_, ?_⟩
  · rw [List.take_append_drop]
  · exact contextSessions_of_sorted hsorted hne
  · rw [List.length_drop]
    rcases Nat.lt_or_ge before.length (max effectiveLookback 21) with hlt | hge
    · right
      rw [Nat.sub_eq_zero_of_le hlt.le]
      exact ⟨rfl, by omega⟩
    · left
      omega

/-- The execution of a planned chunk goes over its own sessions and reads the warm-up again. -/
theorem planResearchChunks_executed {sessions : List Session} {offset maximum : ℤ} {w : Workload}
    {plan : ResearchExecutionPlan Session} {calendar : List Session} {start final : Session}
    {effectiveLookback k : ℕ} {chunk : ResearchExecutionChunk Session}
    (h : planResearchChunks sessions offset w maximum = .ok plan)
    (hsorted : calendar.Pairwise (· < ·)) (hmatch : planMatchesCalendar calendar start final plan)
    (hmade : MadeOf (warmupPart sessions offset.toNat plan.chunkSessionCount.toNat k)
      (researchPart sessions offset.toNat plan.chunkSessionCount.toNat k) chunk) :
    chunkSessions plan chunk = warmupPart sessions offset.toNat plan.chunkSessionCount.toNat k ++
        researchPart sessions offset.toNat plan.chunkSessionCount.toNat k ∧
      researchSessions plan start final chunk =
        researchPart sessions offset.toNat plan.chunkSessionCount.toNat k ∧
      (researchSessions plan start final chunk ≠ [] →
        ReadsFrom calendar effectiveLookback (researchSessions plan start final chunk)) := by
  obtain ⟨-, hzero, -, -, rfl, rfl, -⟩ := planResearchChunks_ok h
  obtain ⟨hrun, hfinal, hbefore, hafter⟩ := planMatchesCalendar_split hsorted hmatch hzero
  obtain ⟨hchunk, hresearch⟩ := researchSessions_eq (hsorted.sublist hrun.sublist) hmade hfinal
    hbefore hafter
  refine ⟨?_, hresearch, ?_⟩
  · rw [hchunk, warmupPart_append_researchPart]
  · intro hne
    rw [hresearch] at hne ⊢
    apply readsFrom_of_infix hsorted _ hne
    exact ((List.drop_suffix _ _).isInfix.trans (Slices.slice_infix _ _ _)).trans hrun

/-- What is to be known of the capacity and of the chunks planned with it: the session count is the
largest one that fits, the plan is rejected when one session does not fit, and the chunks partition
the calculation sessions. The Run's warm-up leads them; a chunk is executed after a warm-up of its
own, read from the calendar. -/
theorem capacity_optimal_and_chunks_partition {Session : Type} [LinearOrder Session]
    (w : Workload) (maximum : ℤ) (sessions : List Session) (offset : ℤ) :
    (∀ plan, planSessionCapacity w maximum = .ok plan →
      1 ≤ plan.sessionCount ∧ plan.sessionCount ≤ maximum ∧
      estimateSessionPeakBytes plan.sessionCount w = .ok plan.estimatedPeakBytes ∧
      plan.estimatedPeakBytes ≤ w.executionMemoryBytes ∧
      ∀ count bytes, count ≤ maximum → estimateSessionPeakBytes count w = .ok bytes →
        bytes ≤ w.executionMemoryBytes → count ≤ plan.sessionCount) ∧
    (planSessionCapacity w maximum = .error .session ↔
      1 ≤ maximum ∧ ∃ bytes, estimateSessionPeakBytes 1 w = .ok bytes ∧
        w.executionMemoryBytes < bytes) ∧
    (planResearchChunks sessions offset w maximum = .error (.capacity .session) ↔
      (sessions ≠ [] ∧ sessions.Pairwise (· ≤ ·)) ∧ (0 ≤ offset ∧ offset < sessions.length) ∧
      1 ≤ maximum ∧ ∃ bytes,
        estimateSessionPeakBytes 1 { w with additionalLiveColumns := 0 } = .ok bytes ∧
        w.executionMemoryBytes < bytes) ∧
    ∀ plan, planResearchChunks sessions offset w maximum = .ok plan →
      planSessionCapacity { w with additionalLiveColumns := 0 } maximum = .ok {
        sessionCount := plan.chunkSessionCount
        timeTargetExceeded := plan.timeTargetExceeded
        estimatedPeakBytes := plan.estimatedPeakBytes
        estimatedWork := plan.estimatedChunkWork } ∧
      ∃ parts, Partitions sessions offset.toNat parts plan ∧
        ∀ calendar start final, calendar.Pairwise (· < ·) →
          planMatchesCalendar calendar start final plan →
          List.Forall₂ (fun part chunk => chunkSessions plan chunk = part.1 ++ part.2 ∧
            researchSessions plan start final chunk = part.2 ∧
            (part.2 ≠ [] → ReadsFrom calendar w.effectiveLookback.toNat part.2))
            parts plan.chunks := by
  refine ⟨fun plan hplan => planSessionCapacity_optimal hplan, planSessionCapacity_rejected_iff,
    planResearchChunks_rejected_iff, ?_⟩
  intro plan hplan
  obtain ⟨-, -, -, hcapacity, -, -, -, hchunks⟩ := planResearchChunks_ok hplan
  refine ⟨hcapacity, _, planResearchChunks_partitions hplan, ?_⟩
  intro calendar start final hsorted hmatch
  rw [planParts, List.forall₂_map_left_iff]
  apply hchunks.imp
  intro k chunk hchunk
  obtain ⟨hown, hresearch, hreads⟩ :=
    planResearchChunks_executed hplan hsorted hmatch hchunk.2
  rw [hresearch] at hreads
  exact ⟨hown, hresearch, hreads⟩

/-- A small Factor Evaluation with a lookback of one session. -/
def shortLookback : Workload where
  formulaWork := 0
  nodeCount := 0
  fieldCount := 0
  maximumUniverseCardinality := 1
  effectiveLookback := 1
  executionMemoryBytes := 1536 * 1024 ^ 2
  additionalLiveColumns := 0
  decisionMode := .factorEvaluation
  pythonProgramCount := 0

/-- The Research Period is the sessions 25 to 29; the plan has a warm-up of one session and chunks
of at most two. -/
lemma capacity_optimal_and_chunks_partition_short :
    ∃ plan parts, planResearchChunks (List.range' 24 6) 1 shortLookback 2 = .ok plan ∧
      Partitions (List.range' 24 6) 1 parts plan := by
  have hok : ∃ plan, planResearchChunks (List.range' 24 6) 1 shortLookback 2 = .ok plan := by
    exact ⟨_, rfl⟩
  obtain ⟨plan, hplan⟩ := hok
  obtain ⟨-, -, -, hchunks⟩ :=
    capacity_optimal_and_chunks_partition shortLookback 2 (List.range' 24 6) 1
  obtain ⟨-, parts, hparts, -⟩ := hchunks plan hplan
  exact ⟨plan, parts, hplan, hparts⟩

/-- The second chunk of that plan holds the sessions 26 and 27. It has no warm-up, and what is read
for it begins at session 5, neither the session before it nor the first of the calendar. -/
theorem later_chunk_without_own_warmup :
    ∃ plan chunk, planResearchChunks (List.range' 24 6) 1 shortLookback 2 = .ok plan ∧
      chunk ∈ plan.chunks ∧ planMatchesCalendar (List.range 30) 25 29 plan ∧
      chunk.firstSession = 26 ∧ chunk.researchSessionCount = 2 ∧ chunk.warmupSessionCount = 0 ∧
      contextSessions (List.range 30) 1 (researchSessions plan 25 29 chunk) =
        some (List.range' 5 23) := by
  refine ⟨_, ⟨2, 26, 27, 2, 0, 2⟩, rfl, ?_, ?_, rfl, rfl, rfl, ?_⟩
  · decide
  · exact ⟨25, 29, by decide, by decide, by decide, by decide⟩
  · decide

end ThesisTrace.ResearchRun.Planning
