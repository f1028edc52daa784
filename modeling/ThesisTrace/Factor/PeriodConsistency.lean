import ThesisTrace.Alpha.Rounding
import ThesisTrace.Factor.Periods
import ThesisTrace.Library.Execution

/-!
# Consistency of the factor statistics of periods

An accumulator stands for the rows that it accepted: its buckets are a function of these rows, so
the counts of the whole period are the sums over the years and over the months, and the way the rows
were split does not matter. A rejected `add` leaves it as it was unless an overflowed running sum
is met after the first bucket has been advanced.
-/

namespace ThesisTrace.Factor
open Transaction Buckets LabelledTransition OrderedMap

variable {S V C P ε : Type}

/-! ### Counts -/

/-- The counts of an aggregate; statistics are numbered in their order. -/
inductive StateCount
  | signalSession
  | quantileValidSession
  | valid (statistic : Nat)
  | positive (statistic : Nat)

def HorizonState.count (count : StateCount) (state : HorizonState V C) : Nat :=
  match count with
  | .signalSession => state.signalSessionCount
  | .quantileValidSession => state.quantileValidSessionCount
  | .valid statistic => (state.statistics[statistic]?.map Statistic.count).getD 0
  | .positive statistic => (state.statistics[statistic]?.map Statistic.positiveCount).getD 0

inductive CoverageCount
  | labelEvaluableSession
  | rightCensoredSession
  | sampleAvailableSession
  | alphaCandidate
  | alphaSample
  | sample
  | alphaExclusion (reason : AlphaExclusion)
  | labelExclusion (reason : LabelExclusion)

def PeriodCoverage.count (count : CoverageCount) (coverage : PeriodCoverage S) : Nat :=
  match count with
  | .labelEvaluableSession => coverage.labelEvaluableSessionCount
  | .rightCensoredSession => coverage.rightCensoredSessionCount
  | .sampleAvailableSession => coverage.sampleAvailableSessionCount
  | .alphaCandidate => coverage.alphaCandidateCount
  | .alphaSample => coverage.alphaSampleCount
  | .sample => coverage.sampleCount
  | .alphaExclusion reason => coverage.alphaExclusions reason
  | .labelExclusion reason => coverage.labelExclusions reason

/-- What a row adds to the counts of an aggregate. -/
def FactorObservation.stateWeight (a : SummaryArithmetic V ε) (count : StateCount)
    (row : FactorObservation S V) : Nat :=
  match count with
  | .signalSession => 1
  | .quantileValidSession => if row.values.quantileReason.isNone then 1 else 0
  | .valid statistic => if (row.values.numbers[statistic]?.join).isSome then 1 else 0
  | .positive statistic =>
    if (row.values.numbers[statistic]?.join).any (fun number => 0 < a.exact number) then 1 else 0

/-- What a row adds to the counts of a coverage. -/
def FactorObservation.coverageWeight (count : CoverageCount) (row : FactorObservation S V) : Nat :=
  match count with
  | .labelEvaluableSession => if row.labelStatus = .withinResearchPeriod then 1 else 0
  | .rightCensoredSession => if row.labelStatus = .withinResearchPeriod then 0 else 1
  | .sampleAvailableSession => if 0 < row.sampleCount then 1 else 0
  | .alphaCandidate => row.alphaCandidateCount
  | .alphaSample => row.alphaSampleCount
  | .sample => row.sampleCount
  | .alphaExclusion reason => addCounts (fun _ => 0) row.alphaExclusions reason
  | .labelExclusion reason => addCounts (fun _ => 0) row.labelExclusions reason

lemma addCounts_eq {κ : Type} [DecidableEq κ] (counts : κ → Nat) (items : List (κ × Nat))
    (key : κ) : addCounts counts items key = counts key + addCounts (fun _ => 0) items key := by
  have hsum : ∀ counts : κ → Nat, addCounts counts items key
      = counts key + ((items.filter fun item => item.1 = key).map Prod.snd).sum := by
    induction items with
    | nil => simp [addCounts]
    | cons item items ih =>
      intro counts
      have hrest := ih (Function.update counts item.1 (counts item.1 + item.2))
      rw [addCounts, List.foldl_cons]
      rw [addCounts] at hrest
      rw [hrest]
      by_cases h : item.1 = key
      · subst h
        simp [Nat.add_assoc]
      · simp [h, Function.update_of_ne (Ne.symm h)]
  rw [hsum counts, hsum fun _ => 0, Nat.zero_add]

lemma advanceStatistic_count (a : SummaryArithmetic V ε) (statistic : Statistic V)
    (number : Option V) : (advanceStatistic a statistic number).count
      = statistic.count + if number.isSome then 1 else 0 := by
  cases number <;> rfl

lemma advanceStatistic_positiveCount (a : SummaryArithmetic V ε) (statistic : Statistic V)
    (number : Option V) : (advanceStatistic a statistic number).positiveCount
      = statistic.positiveCount + if number.any (fun number => 0 < a.exact number) then 1 else 0 := by
  cases number with
  | none => rfl
  | some number =>
    simp only [advanceStatistic, Option.any_some]
    congr 1
    simp

lemma statistics_advance (a : SummaryArithmetic V ε) (digest : Digests S V C)
    (state : HorizonState V C) (row : FactorObservation S V) :
    (state.advance a digest row).statistics
      = List.zipWith (advanceStatistic a) state.statistics row.values.numbers := rfl

/-- Aggregates have a statistic for each of the five groups. -/
def HorizonState.Complete (state : HorizonState V C) : Prop := state.quantiles.length = 5

/-- Rows that have a return for each of the five groups. -/
def FactorObservation.Complete (row : FactorObservation S V) : Prop :=
  row.values.quantileReturns.length = 5

lemma statistics_length {state : HorizonState V C} {row : FactorObservation S V}
    (hstate : state.Complete) (hrow : row.Complete) :
    state.statistics.length = row.values.numbers.length := by
  simp [HorizonState.statistics, FactorValues.numbers,
    show state.quantiles.length = 5 from hstate,
    show row.values.quantileReturns.length = 5 from hrow]

lemma statistics_getElem? (a : SummaryArithmetic V ε) (digest : Digests S V C)
    {state : HorizonState V C} {row : FactorObservation S V} (hstate : state.Complete)
    (hrow : row.Complete) (index : Nat) :
    (state.advance a digest row).statistics[index]?
      = state.statistics[index]?.map fun statistic =>
          advanceStatistic a statistic row.values.numbers[index]?.join := by
  have hlength := statistics_length hstate hrow
  rw [statistics_advance, List.getElem?_zipWith]
  by_cases h : index < state.statistics.length
  · rw [List.getElem?_eq_getElem h, List.getElem?_eq_getElem (hlength ▸ h)]
    rfl
  · rw [List.getElem?_eq_none (Nat.le_of_not_lt h)]
    rfl

variable (rules : PeriodRules S V C P ε)

lemma complete_getD {state : Option (HorizonState V C)} (h : ∀ s ∈ state, s.Complete) :
    (state.getD .empty).Complete := by
  cases state with
  | none => rfl
  | some state => exact h state rfl

lemma count_empty (count : StateCount) :
    (HorizonState.empty : HorizonState V C).count count = 0 := by
  have hstatistics : (HorizonState.empty : HorizonState V C).statistics
      = List.replicate 8 .empty := rfl
  unfold HorizonState.count
  rw [hstatistics]
  cases count with
  | signalSession => rfl
  | quantileValidSession => rfl
  | valid index =>
    simp only [List.getElem?_replicate]
    split <;> rfl
  | positive index =>
    simp only [List.getElem?_replicate]
    split <;> rfl

lemma count_getD (count : StateCount) (state : Option (HorizonState V C)) :
    (state.getD .empty).count count = state.elim 0 (HorizonState.count count) := by
  cases state with
  | none => exact count_empty count
  | some state => rfl

lemma count_advance {state : HorizonState V C} {row : FactorObservation S V}
    (hstate : state.Complete) (hrow : row.Complete) (count : StateCount) :
    (state.advance rules.summaries rules.digests row).count count
      = state.count count + row.stateWeight rules.summaries count := by
  have hlength := statistics_length hstate hrow
  cases count with
  | signalSession => rfl
  | quantileValidSession => rfl
  | valid index =>
    simp only [HorizonState.count, FactorObservation.stateWeight,
      statistics_getElem? _ _ hstate hrow]
    by_cases h : index < state.statistics.length
    · simp [List.getElem?_eq_getElem h, advanceStatistic_count]
    · simp [List.getElem?_eq_none (Nat.le_of_not_lt h),
        List.getElem?_eq_none (Nat.le_of_not_lt (hlength ▸ h))]
  | positive index =>
    simp only [HorizonState.count, FactorObservation.stateWeight,
      statistics_getElem? _ _ hstate hrow]
    by_cases h : index < state.statistics.length
    · simp [List.getElem?_eq_getElem h, advanceStatistic_positiveCount]
    · simp [List.getElem?_eq_none (Nat.le_of_not_lt h),
        List.getElem?_eq_none (Nat.le_of_not_lt (hlength ▸ h))]

/-- Every row adds its own weight to the counts of the aggregates that it advances. -/
lemma additive_state (count : StateCount) :
    Additive rules.advanceState HorizonState.Complete FactorObservation.Complete
      (HorizonState.count count) (FactorObservation.stateWeight rules.summaries count) where
  keeps state row hstate hrow := by
    have hprior := complete_getD hstate
    unfold HorizonState.Complete at hprior
    unfold FactorObservation.Complete at hrow
    simp [PeriodRules.advanceState, HorizonState.advance, HorizonState.Complete, hprior, hrow]
  adds state row hstate hrow := by
    rw [← count_getD]
    exact count_advance rules (complete_getD hstate) hrow count

/-- Every row adds its own weight to the counts of the coverages that it advances. -/
lemma additive_coverage (count : CoverageCount) :
    Additive (PeriodRules.advanceCoverage (V := V)) (fun _ : PeriodCoverage S => True)
      (fun _ => True) (PeriodCoverage.count count) (FactorObservation.coverageWeight count) where
  keeps _ _ _ _ := trivial
  adds state row _ _ := by
    have hempty : (state.getD (.empty row.session)).count count
        = state.elim 0 (PeriodCoverage.count count) := by
      cases state with
      | none => cases count <;> rfl
      | some state => rfl
    rw [← hempty]
    unfold PeriodRules.advanceCoverage
    cases count with
    | alphaExclusion reason => exact addCounts_eq _ _ _
    | labelExclusion reason => exact addCounts_eq _ _ _
    | _ => rfl

/-! ### Sums over periods -/

def isYearOf {P : Type} (horizon : Nat) (key : PeriodKey P) : Bool :=
  match key with
  | (h, .year _) => h = horizon
  | _ => false

def isMonthOf {P : Type} (horizon : Nat) (key : PeriodKey P) : Bool :=
  match key with
  | (h, .month _) => h = horizon
  | _ => false

@[simp] lemma bucketUpdates_cons (row : FactorObservation S V)
    (rows : List (FactorObservation S V)) : rules.bucketUpdates (row :: rows)
      = (rules.periodKeys row).map (·, row) ++ rules.bucketUpdates rows := rfl

lemma bucketUpdates_append (rows rows' : List (FactorObservation S V)) :
    rules.bucketUpdates (rows ++ rows') = rules.bucketUpdates rows ++ rules.bucketUpdates rows' :=
  List.flatMap_append

/-- A measure of the buckets of which every row of a horizon has exactly one. -/
lemma sum_bucketUpdates {p : PeriodKey P → Bool} {horizon : Nat}
    (hp : ∀ row : FactorObservation S V,
      (rules.periodKeys row).countP p = if row.horizon = horizon then 1 else 0)
    (weight : FactorObservation S V → Nat) (rows : List (FactorObservation S V)) :
    ((rules.bucketUpdates rows).map fun update => if p update.1 then weight update.2 else 0).sum
      = (rows.map fun row => if row.horizon = horizon then weight row else 0).sum := by
  induction rows with
  | nil => rfl
  | cons row rows ih =>
    have hkeys : ∀ keys : List (PeriodKey P),
        ((keys.map (·, row)).map fun update => if p update.1 then weight update.2 else 0).sum
          = keys.countP p * weight row := by
      intro keys
      induction keys with
      | nil => simp
      | cons key keys ih =>
        rw [List.map_cons, List.map_cons, List.sum_cons, ih, List.countP_cons]
        by_cases h : p key = true
        · simp only [h, if_true]
          ring
        · simp [h]
    rw [bucketUpdates_cons, List.map_append, List.sum_append, hkeys, ih, hp, List.map_cons,
      List.sum_cons, ite_mul, one_mul, zero_mul]

lemma countP_year (row : FactorObservation S V) (horizon : Nat) :
    (rules.periodKeys row).countP (isYearOf horizon)
      = if row.horizon = horizon then 1 else 0 := by
  simp [PeriodRules.periodKeys, List.countP_cons, isYearOf]

lemma countP_month (row : FactorObservation S V) (horizon : Nat) :
    (rules.periodKeys row).countP (isMonthOf horizon)
      = if row.horizon = horizon then 1 else 0 := by
  simp [PeriodRules.periodKeys, List.countP_cons, isMonthOf]

lemma mem_bucketUpdates {rows : List (FactorObservation S V)}
    {update : PeriodKey P × FactorObservation S V} :
    update ∈ rules.bucketUpdates rows
      ↔ update.2 ∈ rows ∧ update.1 ∈ rules.periodKeys update.2 := by
  unfold PeriodRules.bucketUpdates
  rw [List.mem_flatMap]
  constructor
  · rintro ⟨row, hrow, hupdate⟩
    obtain ⟨key, hkey, rfl⟩ := List.mem_map.mp hupdate
    exact ⟨hrow, hkey⟩
  · rintro ⟨hrow, hkey⟩
    exact ⟨update.2, hrow, List.mem_map.mpr ⟨update.1, hkey, rfl⟩⟩

variable [LinearOrder P]

/-- Each horizon's counts of the whole period are the sums over its years and over its months. -/
def FactorPeriodAccumulator.Consistent (accumulator : FactorPeriodAccumulator S V C P) : Prop :=
  ∀ horizon,
    (∀ count,
      total (isYearOf horizon) (HorizonState.count count) accumulator.states
        = (accumulator.states.lookup (horizon, .all)).elim 0 (HorizonState.count count)
      ∧ total (isMonthOf horizon) (HorizonState.count count) accumulator.states
        = (accumulator.states.lookup (horizon, .all)).elim 0 (HorizonState.count count))
    ∧ ∀ count,
      total (isYearOf horizon) (PeriodCoverage.count count) accumulator.coverage
        = (accumulator.coverage.lookup (horizon, .all)).elim 0 (PeriodCoverage.count count)
      ∧ total (isMonthOf horizon) (PeriodCoverage.count count) accumulator.coverage
        = (accumulator.coverage.lookup (horizon, .all)).elim 0 (PeriodCoverage.count count)

lemma countP_all (row : FactorObservation S V) (horizon : Nat) :
    (rules.periodKeys row).countP (fun key => decide (key = (horizon, Period.all)))
      = if row.horizon = horizon then 1 else 0 := by
  simp [PeriodRules.periodKeys, List.countP_cons]

/-! ### Accumulators and their rows -/

/-- The last session of each horizon after a row. -/
def recordSession (previous : Nat → Option S) (row : FactorObservation S V) : Nat → Option S :=
  Function.update previous row.horizon (some row.session)

/-- Rows whose sessions increase in every horizon. -/
def Increasing [LinearOrder S] (rows : List (FactorObservation S V)) : Prop :=
  rows.Pairwise fun row row' => row.horizon = row'.horizon → row.session < row'.session

/-- What an accumulator knows of the rows that it accepted. -/
structure Represents [LinearOrder S] (rows : List (FactorObservation S V))
    (accumulator : FactorPeriodAccumulator S V C P) : Prop where
  states : accumulator.states
    = (rules.bucketUpdates rows).foldl (put rules.advanceState) ∅
  coverage : accumulator.coverage
    = (rules.bucketUpdates rows).foldl (put PeriodRules.advanceCoverage) ∅
  lastSession : accumulator.lastSession = rows.foldl recordSession fun _ => none
  increasing : Increasing rows
  complete : ∀ row ∈ rows, row.Complete

lemma represents_empty [LinearOrder S] :
    Represents rules [] (.empty : FactorPeriodAccumulator S V C P) :=
  ⟨rfl, rfl, rfl, List.Pairwise.nil, fun _ h => nomatch h⟩

/-- The counts of an accumulator are the sums over its rows. -/
lemma Represents.consistent [LinearOrder S] {rows : List (FactorObservation S V)}
    {accumulator : FactorPeriodAccumulator S V C P} (h : Represents rules rows accumulator) :
    accumulator.Consistent := by
  have hcomplete : ∀ update ∈ rules.bucketUpdates rows, update.2.Complete := fun update hupdate =>
    h.complete _ ((mem_bucketUpdates rules).mp hupdate).1
  have hstates : ∀ (p : PeriodKey P → Bool) horizon count,
      (∀ row : FactorObservation S V,
        (rules.periodKeys row).countP p = if row.horizon = horizon then 1 else 0) →
      total p (HorizonState.count count) accumulator.states
        = (rows.map fun row => if row.horizon = horizon then
            row.stateWeight rules.summaries count else 0).sum := by
    intro p horizon count hp
    rw [h.states, (additive_state rules count).total_foldl_put p (by simp) hcomplete,
      sum_bucketUpdates rules hp]
    exact Nat.zero_add _
  have hcoverage : ∀ (p : PeriodKey P → Bool) horizon count,
      (∀ row : FactorObservation S V,
        (rules.periodKeys row).countP p = if row.horizon = horizon then 1 else 0) →
      total p (PeriodCoverage.count count) accumulator.coverage
        = (rows.map fun row => if row.horizon = horizon then
            row.coverageWeight count else 0).sum := by
    intro p horizon count hp
    rw [h.coverage, (additive_coverage count).total_foldl_put p (by simp)
      (fun _ _ => trivial), sum_bucketUpdates rules hp]
    exact Nat.zero_add _
  intro horizon
  refine ⟨fun count => ?_, fun count => ?_⟩
  · rw [← total_single, hstates _ horizon count fun row => countP_all rules row horizon,
      hstates _ horizon count fun row => countP_year rules row horizon,
      hstates _ horizon count fun row => countP_month rules row horizon]
    exact ⟨rfl, rfl⟩
  · rw [← total_single, hcoverage _ horizon count fun row => countP_all rules row horizon,
      hcoverage _ horizon count fun row => countP_year rules row horizon,
      hcoverage _ horizon count fun row => countP_month rules row horizon]
    exact ⟨rfl, rfl⟩

/-! ### What an add does -/

open FactorPeriodAccumulator

/-- The accumulator after some bucket updates that did not raise. -/
def FactorPeriodAccumulator.updated (updates : List (PeriodKey P × FactorObservation S V))
    (accumulator : FactorPeriodAccumulator S V C P) : FactorPeriodAccumulator S V C P :=
  { accumulator with
    states := updates.foldl (put rules.advanceState) accumulator.states
    coverage := updates.foldl (put PeriodRules.advanceCoverage) accumulator.coverage }

/-- The aggregate that an update finds after those before it. -/
def FactorPeriodAccumulator.stateBefore (accumulator : FactorPeriodAccumulator S V C P)
    (before : List (PeriodKey P × FactorObservation S V)) (key : PeriodKey P) :
    HorizonState V C :=
  (accumulated rules.advanceState (accumulator.states.lookup key) (itemsOf key before)).getD .empty

/-- Every update finds an aggregate whose running sums are finite. -/
def FactorPeriodAccumulator.Bounded (accumulator : FactorPeriodAccumulator S V C P)
    (updates : List (PeriodKey P × FactorObservation S V)) : Prop :=
  ∀ before update after, updates = before ++ update :: after →
    rules.IsCompliant (accumulator.stateBefore rules before update.1)

lemma addBucket_eq (accumulator : FactorPeriodAccumulator S V C P)
    (update : PeriodKey P × FactorObservation S V) :
    addBucket rules accumulator update
      = if rules.IsCompliant (accumulator.stateBefore rules [] update.1) then
          .ok (accumulator.updated rules [update])
        else .error .outOfRange := by
  unfold addBucket PeriodRules.copyFactorState require stateBefore
  by_cases h : rules.IsCompliant ((accumulator.states.lookup update.1).getD .empty)
  · simp [itemsOf, accumulated, h, updated]
  · simp [itemsOf, accumulated, h]

lemma stateBefore_updated (accumulator : FactorPeriodAccumulator S V C P)
    (updates before : List (PeriodKey P × FactorObservation S V)) (key : PeriodKey P) :
    (accumulator.updated rules updates).stateBefore rules before key
      = accumulator.stateBefore rules (updates ++ before) key := by
  unfold stateBefore updated
  rw [lookup_foldl_put, itemsOf_append]
  simp only [accumulated, List.foldl_append]

/-- The loops of an add run to their end, or to the first bucket with an overflowed sum. -/
lemma addBuckets_cases (updates : List (PeriodKey P × FactorObservation S V))
    (accumulator : FactorPeriodAccumulator S V C P) :
    (accumulator.Bounded rules updates
      ∧ addBuckets rules updates accumulator = (accumulator.updated rules updates, .ok ()))
    ∨ ∃ before update after, updates = before ++ update :: after
      ∧ accumulator.Bounded rules before
      ∧ ¬rules.IsCompliant (accumulator.stateBefore rules before update.1)
      ∧ addBuckets rules updates accumulator
        = (accumulator.updated rules before, .error .outOfRange) := by
  induction updates generalizing accumulator with
  | nil =>
    refine .inl ⟨?_, rfl⟩
    intro before update after h
    simp at h
  | cons update updates ih =>
    unfold addBuckets
    rw [addBucket_eq]
    by_cases hfirst : rules.IsCompliant (accumulator.stateBefore rules [] update.1)
    · rw [if_pos hfirst]
      have hbounded : ∀ rest, (accumulator.updated rules [update]).Bounded rules rest →
          accumulator.Bounded rules (update :: rest) := by
        intro rest hrest before other after hsplit
        cases before with
        | nil =>
          cases hsplit
          exact hfirst
        | cons head before =>
          rw [List.cons_append, List.cons.injEq] at hsplit
          obtain ⟨rfl, hsplit⟩ := hsplit
          have hcompliant := hrest before other after hsplit
          rwa [stateBefore_updated, List.singleton_append] at hcompliant
      rcases ih (accumulator.updated rules [update]) with ⟨hrest, heq⟩ |
        ⟨before, other, after, rfl, hrest, hoverflow, heq⟩
      · exact .inl ⟨hbounded updates hrest, heq⟩
      · refine .inr ⟨update :: before, other, after, rfl, hbounded before hrest, ?_, heq⟩
        rwa [stateBefore_updated, List.singleton_append] at hoverflow
    · rw [if_neg hfirst]
      refine .inr ⟨[], update, updates, rfl, ?_, hfirst, rfl⟩
      intro before other after h
      simp at h

omit [LinearOrder P] in
lemma signalSessions_accumulated (state : Option (HorizonState V C))
    (rows : List (FactorObservation S V)) :
    (accumulated rules.advanceState state rows).elim 0 HorizonState.signalSessionCount
      = state.elim 0 HorizonState.signalSessionCount + rows.length := by
  induction rows generalizing state with
  | nil => rfl
  | cons row rows ih =>
    have hstep : (rules.advanceState state row).signalSessionCount
        = state.elim 0 HorizonState.signalSessionCount + 1 := by
      cases state <;> rfl
    rw [accumulated, List.foldl_cons, ← accumulated, ih, Option.elim_some, hstep,
      List.length_cons]
    omega

/-- Advancing a bucket changes the accumulator. -/
lemma updated_ne (accumulator : FactorPeriodAccumulator S V C P)
    (update : PeriodKey P × FactorObservation S V)
    (updates : List (PeriodKey P × FactorObservation S V)) :
    accumulator.updated rules (update :: updates) ≠ accumulator := by
  intro h
  have hlookup := congrArg (fun a => (a.states.lookup update.1).elim 0
    HorizonState.signalSessionCount) h
  simp only [updated, lookup_foldl_put] at hlookup
  rw [signalSessions_accumulated] at hlookup
  simp [itemsOf] at hlookup

variable [LinearOrder S]

/-- Every session of some increasing rows is at most the last one of its horizon. -/
lemma le_recordSession {rows : List (FactorObservation S V)} (h : Increasing rows) :
    ∀ row ∈ rows, ∃ session ∈ rows.foldl recordSession (fun _ => none) row.horizon,
      row.session ≤ session := by
  induction rows using List.reverseRecOn with
  | nil => exact fun _ hrow => nomatch hrow
  | append_singleton rows last ih =>
    intro row hrow
    obtain ⟨hrows, _, hlast⟩ := List.pairwise_append.mp h
    rw [List.foldl_append, List.foldl_cons, List.foldl_nil, recordSession]
    by_cases hhorizon : row.horizon = last.horizon
    · rw [hhorizon, Function.update_self]
      refine ⟨last.session, rfl, ?_⟩
      rcases List.mem_append.mp hrow with hold | hnew
      · exact (hlast row hold last (List.mem_singleton_self _) hhorizon).le
      · rw [List.mem_singleton.mp hnew]
    · rw [Function.update_of_ne hhorizon]
      apply ih hrows
      rcases List.mem_append.mp hrow with hold | hnew
      · exact hold
      · exact absurd (congrArg FactorObservation.horizon (List.mem_singleton.mp hnew)) hhorizon

omit [LinearOrder P] in
/-- The sessions that pass go on increasing. -/
lemma checkSessions_ok {rows new : List (FactorObservation S V)} {previous : Nat → Option S}
    (hrows : Increasing rows)
    (h : rules.checkSessions new (rows.foldl recordSession fun _ => none) = .ok previous) :
    Increasing (rows ++ new) ∧ previous = (rows ++ new).foldl recordSession fun _ => none := by
  induction new generalizing rows with
  | nil =>
    rw [List.append_nil]
    exact ⟨hrows, (pure_ok_iff.mp h).symm⟩
  | cons row new ih =>
    simp only [PeriodRules.checkSessions, bind_ok_iff, require_ok_iff] at h
    obtain ⟨_, _, _, hlast, hnew⟩ := h
    have hnext : Increasing (rows ++ [row]) := by
      refine List.pairwise_append.mpr ⟨hrows, List.pairwise_singleton _ _, ?_⟩
      intro old hold other hother hhorizon
      obtain rfl := List.mem_singleton.mp hother
      obtain ⟨session, hsession, hle⟩ := le_recordSession hrows old hold
      exact lt_of_le_of_lt hle (hlast session (hhorizon ▸ hsession))
    have hrecorded : (rows ++ [row]).foldl recordSession (fun _ => none)
        = Function.update (rows.foldl recordSession fun _ => none) row.horizon
          (some row.session) := by
      rw [List.foldl_append]
      rfl
    rw [List.append_cons]
    exact ih hnext (hrecorded ▸ hnew)

variable [DecidableEq V]

/-- An `add` is rejected by its checks, goes through, or stops at an overflowed sum. -/
lemma add_cases (accumulator : FactorPeriodAccumulator S V C P)
    (rows : List (FactorObservation S V)) :
    (∃ error, checkRows rules accumulator rows = .error error
      ∧ add rules accumulator rows = (accumulator, .error error))
    ∨ (∃ previous, checkRows rules accumulator rows = .ok previous
      ∧ accumulator.Bounded rules (rules.bucketUpdates rows)
      ∧ add rules accumulator rows
        = ({ accumulator.updated rules (rules.bucketUpdates rows) with lastSession := previous },
          .ok ()))
    ∨ ∃ previous before update after, checkRows rules accumulator rows = .ok previous
      ∧ rules.bucketUpdates rows = before ++ update :: after
      ∧ accumulator.Bounded rules before
      ∧ ¬rules.IsCompliant (accumulator.stateBefore rules before update.1)
      ∧ add rules accumulator rows = (accumulator.updated rules before, .error .outOfRange) := by
  unfold add
  cases hcheck : checkRows rules accumulator rows with
  | error error => exact .inl ⟨error, rfl, rfl⟩
  | ok previous =>
    rcases addBuckets_cases rules (rules.bucketUpdates rows) accumulator with ⟨hbounded, heq⟩ |
      ⟨before, update, after, hsplit, hbefore, hoverflow, heq⟩
    · exact .inr (.inl ⟨previous, rfl, hbounded, by rw [heq]⟩)
    · refine .inr (.inr ⟨previous, before, update, after, rfl, hsplit, hbefore, hoverflow, ?_⟩)
      rw [heq]

/-- An `add` is torn where its checks pass, the first bucket is advanced, and a later one has an
overflowed running sum. -/
def FactorPeriodAccumulator.Torn (accumulator : FactorPeriodAccumulator S V C P)
    (rows : List (FactorObservation S V)) : Prop :=
  (∃ previous, checkRows rules accumulator rows = .ok previous)
  ∧ (∀ update ∈ (rules.bucketUpdates rows).head?,
    rules.IsCompliant (accumulator.stateBefore rules [] update.1))
  ∧ ¬accumulator.Bounded rules (rules.bucketUpdates rows)

/-- A rejected `add` leaves the accumulator as it was unless it is torn. -/
theorem add_atomic_iff (accumulator : FactorPeriodAccumulator S V C P)
    (rows : List (FactorObservation S V)) :
    ((add rules accumulator rows).2 ≠ .ok () → (add rules accumulator rows).1 = accumulator)
      ↔ ¬accumulator.Torn rules rows := by
  rcases add_cases rules accumulator rows with ⟨error, hcheck, heq⟩ |
    ⟨previous, hcheck, hbounded, heq⟩ |
    ⟨previous, before, update, after, hcheck, hsplit, hbefore, hoverflow, heq⟩
  · rw [heq]
    refine iff_of_true (fun _ => rfl) ?_
    rintro ⟨⟨previous, hok⟩, _⟩
    rw [hcheck] at hok
    cases hok
  · rw [heq]
    exact iff_of_true (fun hne => absurd rfl hne) fun htorn => htorn.2.2 hbounded
  · rw [heq]
    cases before with
    | nil =>
      -- the first bucket itself stops the loop
      refine iff_of_true (fun _ => rfl) ?_
      rintro ⟨_, hfirst, _⟩
      exact hoverflow (hfirst update (by rw [hsplit]; rfl))
    | cons first before =>
      refine iff_of_false (fun hsame => updated_ne rules accumulator first before
        (hsame (by simp))) (not_not.mpr ⟨⟨previous, hcheck⟩, ?_, ?_⟩)
      · intro head hhead
        rw [hsplit, List.cons_append, List.head?_cons, Option.mem_some] at hhead
        subst hhead
        exact hbefore [] first before rfl
      · exact fun hbounded => hoverflow (hbounded _ _ _ hsplit)

/-! ### Runs -/

/-- An accepted `add` appends its rows. -/
lemma Represents.add {rows new : List (FactorObservation S V)}
    {accumulator next : FactorPeriodAccumulator S V C P} (h : Represents rules rows accumulator)
    (hadd : add rules accumulator new = (next, .ok ())) :
    Represents rules (rows ++ new) next := by
  rcases add_cases rules accumulator new with ⟨_, _, heq⟩ | ⟨previous, hcheck, _, heq⟩ |
    ⟨_, _, _, _, _, _, _, _, heq⟩
  · rw [heq] at hadd
    cases hadd
  · rw [heq] at hadd
    cases hadd
    simp only [checkRows, PeriodRules.validateObservations, bind_ok_iff, require_ok_iff,
      pure_ok_iff] at hcheck
    obtain ⟨_, ⟨_, hvalid, _, _, rfl⟩, hsessions⟩ := hcheck
    rw [h.lastSession] at hsessions
    obtain ⟨hincreasing, hprevious⟩ := checkSessions_ok rules h.increasing hsessions
    refine ⟨?_, ?_, hprevious, hincreasing, ?_⟩
    · rw [bucketUpdates_append, List.foldl_append, ← h.states]
      rfl
    · rw [bucketUpdates_append, List.foldl_append, ← h.coverage]
      rfl
    · intro row hrow
      rcases List.mem_append.mp hrow with hold | hnew
      · exact h.complete row hold
      · exact (hvalid row hnew).1.2.2.2.2.2.1
  · rw [heq] at hadd
    cases hadd

/-- One `add`, whatever comes of it. -/
def Adds (accumulator : FactorPeriodAccumulator S V C P) (rows : List (FactorObservation S V))
    (next : FactorPeriodAccumulator S V C P) : Prop :=
  next = (add rules accumulator rows).1

/-- One `add` that is accepted. -/
def Accepts (accumulator : FactorPeriodAccumulator S V C P) (rows : List (FactorObservation S V))
    (next : FactorPeriodAccumulator S V C P) : Prop :=
  add rules accumulator rows = (next, .ok ())

lemma accepts_add {accumulator : FactorPeriodAccumulator S V C P}
    {rows : List (FactorObservation S V)} (h : (add rules accumulator rows).2 = .ok ()) :
    Accepts rules accumulator rows (add rules accumulator rows).1 :=
  Prod.ext rfl h

/-- Without a torn `add`, an accumulator stands for the rows that it accepted. -/
lemma exists_represents {adds : List (List (FactorObservation S V))}
    {accumulator : FactorPeriodAccumulator S V C P}
    (h : Exec (restrict (Adds rules) fun accumulator rows => ¬accumulator.Torn rules rows)
      .empty adds accumulator) :
    ∃ rows, Represents rules rows accumulator := by
  refine h.invariant (I := fun accumulator => ∃ rows, Represents rules rows accumulator) ?_
    ⟨[], represents_empty rules⟩
  rintro accumulator new next ⟨rows, hrows⟩ ⟨rfl, hwhole⟩
  cases hresult : (add rules accumulator new).2 with
  | ok =>
    exact ⟨rows ++ new, hrows.add rules (accepts_add rules hresult)⟩
  | error error =>
    have hsame := (add_atomic_iff rules accumulator new).mpr hwhole (by rw [hresult]; simp)
    rw [hsame]
    exact ⟨rows, hrows⟩

lemma represents_flatten {adds : List (List (FactorObservation S V))}
    {accumulator : FactorPeriodAccumulator S V C P}
    (h : Exec (Accepts rules) .empty adds accumulator) :
    Represents rules adds.flatten accumulator := by
  refine h.invariant_trace (I := fun adds accumulator =>
    Represents rules adds.flatten accumulator) ?_ (represents_empty rules)
  intro adds accumulator new next hrows hadd
  rw [List.flatten_append, List.flatten_singleton]
  exact hrows.add rules hadd

/-! ### Splits -/

omit [LinearOrder S] [DecidableEq V] in
lemma itemsOf_bucketUpdates (key : PeriodKey P) (rows : List (FactorObservation S V)) :
    itemsOf key (rules.bucketUpdates rows)
      = rows.filter fun row => decide (key ∈ rules.periodKeys row) := by
  induction rows with
  | nil => rfl
  | cons row rows ih =>
    have hkeys : itemsOf key ((rules.periodKeys row).map (·, row))
        = if key ∈ rules.periodKeys row then [row] else [] := by
      obtain ⟨horizon, period⟩ := key
      by_cases hhorizon : row.horizon = horizon
      · cases period <;> simp [itemsOf, PeriodRules.periodKeys, List.filter_cons, hhorizon,
          apply_ite (List.map Prod.snd), eq_comm]
      · simp [itemsOf, PeriodRules.periodKeys, hhorizon, Ne.symm hhorizon]
    rw [bucketUpdates_cons, itemsOf_append, hkeys, ih, List.filter_cons]
    split <;> simp_all

omit [DecidableEq V] in
/-- The items of a bucket do not depend on how the rows of different horizons are interleaved. -/
lemma itemsOf_congr {rows rows' : List (FactorObservation S V)} (h : rows.Perm rows')
    (hrows : Increasing rows) (hrows' : Increasing rows') (key : PeriodKey P) :
    itemsOf key (rules.bucketUpdates rows) = itemsOf key (rules.bucketUpdates rows') := by
  rw [itemsOf_bucketUpdates, itemsOf_bucketUpdates]
  have hhorizon : ∀ rows : List (FactorObservation S V), Increasing rows →
      (rows.filter fun row => decide (key ∈ rules.periodKeys row)).Pairwise
        fun row row' => row.session < row'.session := by
    intro rows hrows
    have hkept : ∀ row ∈ rows.filter fun row => decide (key ∈ rules.periodKeys row),
        row.horizon = key.1 := by
      intro row hrow
      have hmem := of_decide_eq_true (List.mem_filter.mp hrow).2
      simp only [PeriodRules.periodKeys, List.mem_cons, List.not_mem_nil, or_false] at hmem
      rcases hmem with rfl | rfl | rfl <;> rfl
    refine (List.Pairwise.sublist List.filter_sublist hrows).imp_of_mem ?_
    intro row row' hrow hrow' hlt
    exact hlt ((hkept row hrow).trans (hkept row' hrow').symm)
  refine List.Perm.eq_of_pairwise ?_ (hhorizon rows hrows) (hhorizon rows' hrows') (h.filter _)
  intro row row' _ _ hlt hlt'
  exact absurd hlt (lt_asymm hlt')

omit [DecidableEq V] in
/-- Accumulators of the same rows have the same buckets. -/
lemma Represents.lookup_congr {rows rows' : List (FactorObservation S V)}
    {accumulator accumulator' : FactorPeriodAccumulator S V C P}
    (h : Represents rules rows accumulator) (h' : Represents rules rows' accumulator')
    (hperm : rows.Perm rows') (key : PeriodKey P) :
    accumulator.states.lookup key = accumulator'.states.lookup key
      ∧ accumulator.coverage.lookup key = accumulator'.coverage.lookup key := by
  have hitems := itemsOf_congr rules hperm h.increasing h'.increasing key
  rw [h.states, h'.states, h.coverage, h'.coverage, lookup_foldl_put, lookup_foldl_put,
    lookup_foldl_put, lookup_foldl_put, hitems]
  exact ⟨rfl, rfl⟩

omit [DecidableEq V] in
/-- They have the same summaries. -/
lemma Represents.summaries_congr {rows rows' : List (FactorObservation S V)}
    {accumulator accumulator' : FactorPeriodAccumulator S V C P}
    (h : Represents rules rows accumulator) (h' : Represents rules rows' accumulator')
    (hperm : rows.Perm rows') :
    finish rules accumulator = finish rules accumulator'
      ∧ ∀ (A : Type) (alphaChecksums : Nat → A), fullSummary rules alphaChecksums accumulator
        = fullSummary rules alphaChecksums accumulator' := by
  have hlookup := h.lookup_congr rules h' hperm
  have hsorted : sorted accumulator.states = sorted accumulator'.states :=
    sorted_congr (perm_iff_lookup.mpr fun key => (hlookup key).1)
  refine ⟨?_, fun A alphaChecksums => ?_⟩
  · unfold finish
    rw [hsorted]
    simp only [(hlookup _).2]
  · unfold fullSummary
    simp only [(hlookup _).1]

lemma accepts_iff {accumulator next : FactorPeriodAccumulator S V C P}
    {rows : List (FactorObservation S V)} :
    Accepts rules accumulator rows next ↔ ∃ previous,
      checkRows rules accumulator rows = .ok previous
      ∧ accumulator.Bounded rules (rules.bucketUpdates rows)
      ∧ next = { accumulator.updated rules (rules.bucketUpdates rows) with
        lastSession := previous } := by
  unfold Accepts
  rcases add_cases rules accumulator rows with ⟨error, hcheck, heq⟩ |
    ⟨previous, hcheck, hbounded, heq⟩ |
    ⟨previous, before, update, after, hcheck, hsplit, _, hoverflow, heq⟩
  · simp [hcheck, heq]
  · simp [hcheck, heq, hbounded, eq_comm]
  · refine iff_of_false (by simp [heq]) ?_
    rintro ⟨_, _, hbounded, _⟩
    exact hoverflow (hbounded before update after hsplit)

omit [LinearOrder P] [DecidableEq V] in
lemma checkSessions_append (rows rows' : List (FactorObservation S V)) (previous : Nat → Option S) :
    rules.checkSessions (rows ++ rows') previous
      = rules.checkSessions rows previous >>= rules.checkSessions rows' := by
  induction rows generalizing previous with
  | nil => rfl
  | cons row rows ih =>
    simp only [List.cons_append, PeriodRules.checkSessions, ih, bind_assoc]

/-- The first rows of an accepted `add` are accepted, and the others after them. -/
lemma Accepts.split {accumulator next : FactorPeriodAccumulator S V C P}
    {rows rows' : List (FactorObservation S V)}
    (h : Accepts rules accumulator (rows ++ rows') next) :
    ∃ middle, Accepts rules accumulator rows middle ∧ Accepts rules middle rows' next := by
  obtain ⟨previous, hcheck, hbounded, rfl⟩ := (accepts_iff rules).mp h
  rw [bucketUpdates_append] at hbounded
  simp only [checkRows, PeriodRules.validateObservations, bind_ok_iff, require_ok_iff,
    pure_ok_iff] at hcheck
  obtain ⟨_, ⟨_, hvalid, _, hcoordinates, rfl⟩, hsessions⟩ := hcheck
  rw [checkSessions_append, bind_ok_iff] at hsessions
  obtain ⟨reached, hreached, hrest⟩ := hsessions
  rw [List.map_append, List.pairwise_append] at hcoordinates
  refine ⟨{ accumulator.updated rules (rules.bucketUpdates rows) with lastSession := reached },
    (accepts_iff rules).mpr ⟨reached, ?_, ?_, rfl⟩, (accepts_iff rules).mpr ⟨previous, ?_, ?_, ?_⟩⟩
  · simp only [checkRows, PeriodRules.validateObservations, bind_ok_iff, require_ok_iff,
      pure_ok_iff]
    exact ⟨rows, ⟨(), fun row hrow => hvalid row (List.mem_append_left _ hrow), (), hcoordinates.1,
      rfl⟩, hreached⟩
  · intro before update after hsplit
    exact hbounded before update (after ++ rules.bucketUpdates rows') (by simp [hsplit])
  · simp only [checkRows, PeriodRules.validateObservations, bind_ok_iff, require_ok_iff,
      pure_ok_iff]
    exact ⟨rows', ⟨(), fun row hrow => hvalid row (List.mem_append_right _ hrow), (),
      hcoordinates.2.1, rfl⟩, hrest⟩
  · intro before update after hsplit
    have hcompliant := hbounded (rules.bucketUpdates rows ++ before) update after
      (by rw [hsplit, List.append_assoc])
    rw [← stateBefore_updated] at hcompliant
    exact hcompliant
  · rw [bucketUpdates_append]
    simp only [updated, List.foldl_append]

/-- Every split of accepted rows is accepted, and leads to the same accumulator. -/
lemma Accepts.parts {accumulator next : FactorPeriodAccumulator S V C P}
    {parts : List (List (FactorObservation S V))}
    (hne : parts ≠ []) (h : Accepts rules accumulator parts.flatten next) :
    Exec (Accepts rules) accumulator parts next := by
  induction parts generalizing accumulator with
  | nil => exact absurd rfl hne
  | cons part parts ih =>
    by_cases hlast : parts = []
    · subst hlast
      rw [List.flatten_singleton] at h
      exact .single h
    · rw [List.flatten_cons] at h
      obtain ⟨middle, hpart, hrest⟩ := Accepts.split rules h
      exact .cons hpart (ih hlast hrest)

/-- A rejected `add` leaves the accumulator as it was exactly if it is not torn. In every run without
a torn `add` each horizon's counts of the whole period are the sums over its years and over its
months. Every split of rows that one `add` accepts is accepted and ends in the same accumulator, and
runs that accept the same rows, in whatever parts, end with the same summaries. -/
theorem factor_periods_consistent :
    (∀ (accumulator : FactorPeriodAccumulator S V C P) rows,
      ((add rules accumulator rows).2 ≠ .ok () → (add rules accumulator rows).1 = accumulator)
        ↔ ¬accumulator.Torn rules rows)
    ∧ (∀ adds (accumulator : FactorPeriodAccumulator S V C P),
      Exec (restrict (Adds rules) fun accumulator rows => ¬accumulator.Torn rules rows)
        .empty adds accumulator → accumulator.Consistent)
    ∧ (∀ parts (accumulator next : FactorPeriodAccumulator S V C P), parts ≠ [] →
      Accepts rules accumulator parts.flatten next →
        Exec (Accepts rules) accumulator parts next)
    ∧ ∀ adds adds' (accumulator accumulator' : FactorPeriodAccumulator S V C P),
      Exec (Accepts rules) .empty adds accumulator →
      Exec (Accepts rules) .empty adds' accumulator' → adds.flatten.Perm adds'.flatten →
        finish rules accumulator = finish rules accumulator'
        ∧ ∀ (A : Type) (alphaChecksums : Nat → A),
          fullSummary rules alphaChecksums accumulator
            = fullSummary rules alphaChecksums accumulator' := by
  refine ⟨add_atomic_iff rules, ?_, fun _ _ _ hne h => h.parts rules hne, ?_⟩
  · intro adds accumulator h
    obtain ⟨rows, hrows⟩ := exists_represents rules h
    exact hrows.consistent rules
  · intro adds adds' accumulator accumulator' h h' hperm
    exact (represents_flatten rules h).summaries_congr rules (represents_flatten rules h') hperm

/-! ### An overflow -/

open Alpha in
def binary64Summaries : SummaryArithmetic Alpha.Binary64 Unit where
  exact := Binary53.value
  add := Numeric.add
  sub := Numeric.sub
  smaller left right := |Binary53.value left| < |Binary53.value right|
  isZero number := Binary53.value number = 0
  fsumMean values count :=
    .ok (Binary53.divide (Binary53.exactlyRoundedSum values) (Binary53.ofRational count))
  sqrt variance := .ok (Binary53.squareRoot (Binary53.ofRational variance))
  divide := Numeric.div
  fraction positive count := Binary53.ofRational (positive / count)

/-- Sessions as numbers of eight digits, in binary64. -/
def binary64Periods : PeriodRules Nat Alpha.Binary64 Unit Nat Unit where
  horizons := .default
  calendar := ⟨fun _ => true, (· / 10000), (· / 100)⟩
  isFinite := Alpha.Numeric.isFinite
  inRange number := |Alpha.Binary53.value number| ≤ 1
  difference := Alpha.Numeric.sub
  summaries := binary64Summaries
  digests := ⟨fun _ _ => (), fun _ _ => ()⟩

/-- A day on which the lowest group returned `bottom` and the highest nothing. -/
def returnRow (horizon session : Nat) (bottom : Alpha.Binary64) :
    FactorObservation Nat Alpha.Binary64 where
  session := session
  horizon := horizon
  labelEntrySession := some (session + 1)
  labelExitSession := some (session + 2)
  labelStatus := .withinResearchPeriod
  alphaCandidateCount := 30
  alphaSampleCount := 30
  alphaExclusions := []
  sampleCount := 30
  labelExclusions := []
  values :=
    { ic := some (some 0)
      rankIc := some (some 0)
      correlationReason := none
      quantileReturns := [some bottom, none, none, none, some (some 0)]
      quantileCounts := [15, 0, 0, 0, 15]
      topBottomReturn := some (Alpha.Numeric.sub (some 0 : Alpha.Binary64) bottom)
      quantileReason := none }

/-- The rows of two days at the turn of the year may come at once, row by row or day by day. -/
theorem factor_periods_consistent_year_end :
    let december := returnRow 1 20231229 (some 0)
    let january := returnRow 1 20240102 (some 1)
    let december5 := returnRow 5 20231229 (some 1)
    let january5 := returnRow 5 20240102 (some 0)
    let rows := [december, january, december5, january5]
    let accumulator := (add binary64Periods .empty rows).1
    let daily := (add binary64Periods (add binary64Periods .empty [december, december5]).1
      [january, january5]).1
    accumulator.Consistent
    ∧ Exec (Accepts binary64Periods) .empty [[december], [january], [december5], [january5]]
      accumulator
    ∧ finish binary64Periods accumulator = finish binary64Periods daily := by
  intro december january december5 january5 rows accumulator daily
  obtain ⟨hatomic, hconsistent, hsplit, hsame⟩ := factor_periods_consistent binary64Periods
  have hrows : (add binary64Periods .empty rows).2 = .ok () := by decide +kernel
  have hdecember : (add binary64Periods .empty [december, december5]).2 = .ok () := by
    decide +kernel
  have hjanuary : (add binary64Periods (add binary64Periods .empty [december, december5]).1
      [january, january5]).2 = .ok () := by
    decide +kernel
  have hwhole : ¬FactorPeriodAccumulator.empty.Torn binary64Periods rows :=
    (hatomic _ _).mp fun hrejected => absurd hrows hrejected
  have haccepts : Accepts binary64Periods .empty rows accumulator := accepts_add _ hrows
  have hflatten : [[december], [january], [december5], [january5]].flatten = rows := rfl
  have hperm : [rows].flatten.Perm [[december, december5], [january, january5]].flatten := by
    have hswap : ∀ a b c d : FactorObservation Nat Alpha.Binary64,
        [a, b, c, d].Perm [a, c, b, d] := fun a b c d => (List.Perm.swap c b [d]).cons a
    exact hswap december january december5 january5
  refine ⟨hconsistent [rows] accumulator (.snoc .nil ⟨rfl, hwhole⟩),
    hsplit _ .empty accumulator (List.cons_ne_nil _ _) (hflatten ▸ haccepts), ?_⟩
  exact (hsame [rows] [[december, december5], [january, january5]] accumulator daily
    (.snoc .nil haccepts)
    (.snoc (.snoc .nil (accepts_add _ hdecember)) (accepts_add _ hjanuary)) hperm).1

/-- Two returns of `2 ^ 1023` overflow the running sum of horizon five. The next `add` is rejected
there, after horizon one has been advanced. -/
theorem overflowed_add_is_torn :
    let days := [returnRow 5 20240102 (some (2 ^ 1023)), returnRow 5 20240103 (some (2 ^ 1023))]
    let accumulator := (add binary64Periods .empty days).1
    let next := [returnRow 1 20240104 (some 0), returnRow 5 20240104 (some 0)]
    (add binary64Periods .empty days).2 = .ok ()
    ∧ (add binary64Periods accumulator next).2 = .error .outOfRange
    ∧ (add binary64Periods accumulator next).1 ≠ accumulator := by
  refine ⟨by decide +kernel, by decide +kernel, ?_⟩
  intro h
  have hlookup := congrArg (fun a => (a.states.lookup (1, .all)).isSome) h
  revert hlookup
  decide +kernel

end ThesisTrace.Factor
