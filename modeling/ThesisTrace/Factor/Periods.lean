import Mathlib.Order.WithBot
import ThesisTrace.Factor.Chunks
import ThesisTrace.Library.Buckets

/-!
# Factor statistics of periods

`FactorPeriodAccumulator` aggregates the published daily evidence by horizon over the whole
research period, every year and every month. An `add` checks all its rows before it updates the
first bucket, but the update of a bucket can still raise: an aggregate whose running sum has
overflowed is no JSON and cannot be copied.
-/

namespace ThesisTrace.Factor
open Transaction Buckets

/-- How sessions fall into periods: whether `date.fromisoformat` reads a session, `session[:4]`
and `session[:7]`. -/
structure PeriodCalendar (S P : Type) where
  isDate : S → Bool
  year : S → P
  month : S → P

/-- A period and its granularity. -/
inductive Period (P : Type)
  | all
  | month (period : P)
  | year (period : P)
  deriving DecidableEq, Repr

abbrev PeriodKey (P : Type) : Type := Nat × Period P

/-- The keys in the order of `sorted`: horizon, name of the granularity, period. -/
def PeriodKey.order {P : Type} : PeriodKey P → Nat ×ₗ (Nat ×ₗ WithBot P)
  | (horizon, .all) => toLex (horizon, toLex (0, ⊥))
  | (horizon, .month period) => toLex (horizon, toLex (1, period))
  | (horizon, .year period) => toLex (horizon, toLex (2, period))

lemma PeriodKey.order_injective {P : Type} :
    Function.Injective (PeriodKey.order : PeriodKey P → _) := by
  rintro ⟨horizon, period⟩ ⟨horizon', period'⟩ h
  cases period <;> cases period' <;> simp_all [PeriodKey.order]

instance {P : Type} [LinearOrder P] : LinearOrder (PeriodKey P) :=
  LinearOrder.lift' PeriodKey.order PeriodKey.order_injective

/-- The coverage of a bucket. A reason that was never counted has the count zero. -/
structure PeriodCoverage (S : Type) where
  firstSignalSession : S
  lastSignalSession : S
  labelEvaluableSessionCount : Nat
  firstEvaluableSignalSession : Option S
  lastEvaluableSignalSession : Option S
  rightCensoredSessionCount : Nat
  sampleAvailableSessionCount : Nat
  alphaCandidateCount : Nat
  alphaSampleCount : Nat
  sampleCount : Nat
  alphaExclusions : AlphaExclusion → Nat
  labelExclusions : LabelExclusion → Nat

/-- `counts.get(reason, 0) + count` for every item of a dictionary. -/
def addCounts {κ : Type} [DecidableEq κ] (counts : κ → Nat) (items : List (κ × Nat)) : κ → Nat :=
  items.foldl (fun counts item => Function.update counts item.1 (counts item.1 + item.2)) counts

def PeriodCoverage.empty {S : Type} (session : S) : PeriodCoverage S where
  firstSignalSession := session
  lastSignalSession := session
  labelEvaluableSessionCount := 0
  firstEvaluableSignalSession := none
  lastEvaluableSignalSession := none
  rightCensoredSessionCount := 0
  sampleAvailableSessionCount := 0
  alphaCandidateCount := 0
  alphaSampleCount := 0
  sampleCount := 0
  alphaExclusions := fun _ => 0
  labelExclusions := fun _ => 0

def PeriodCoverage.add {S V : Type} (coverage : PeriodCoverage S) (row : FactorObservation S V) :
    PeriodCoverage S :=
  let evaluable := row.labelStatus = .withinResearchPeriod
  { firstSignalSession := coverage.firstSignalSession
    lastSignalSession := row.session
    labelEvaluableSessionCount :=
      coverage.labelEvaluableSessionCount + if evaluable then 1 else 0
    firstEvaluableSignalSession :=
      if evaluable then coverage.firstEvaluableSignalSession.getD row.session
      else coverage.firstEvaluableSignalSession
    lastEvaluableSignalSession :=
      if evaluable then row.session else coverage.lastEvaluableSignalSession
    rightCensoredSessionCount :=
      coverage.rightCensoredSessionCount + if evaluable then 0 else 1
    sampleAvailableSessionCount :=
      coverage.sampleAvailableSessionCount + if 0 < row.sampleCount then 1 else 0
    alphaCandidateCount := coverage.alphaCandidateCount + row.alphaCandidateCount
    alphaSampleCount := coverage.alphaSampleCount + row.alphaSampleCount
    sampleCount := coverage.sampleCount + row.sampleCount
    alphaExclusions := addCounts coverage.alphaExclusions row.alphaExclusions
    labelExclusions := addCounts coverage.labelExclusions row.labelExclusions }

inductive PeriodError (ε : Type)
  /-- An observation that `FactorDailyObservation` rejects. -/
  | invalidObservation
  /-- Factor daily coordinates must be unique and ordered -/
  | coordinates
  /-- `date.fromisoformat` -/
  | notDate
  /-- Factor period observations must be unique and ordered -/
  | unordered
  /-- Out of range float values are not JSON compliant -/
  | outOfRange
  /-- Factor evidence is missing a horizon -/
  | missingHorizon
  | missingCoverage
  | summary (error : ε)
  deriving DecidableEq, Repr

/-- What an accumulation depends on. -/
structure PeriodRules (S V C P ε : Type) where
  horizons : HorizonSet
  calendar : PeriodCalendar S P
  /-- `math.isfinite` -/
  isFinite : V → Bool
  /-- `-1 <= value <= 1` -/
  inRange : V → Bool
  difference : V → V → V
  summaries : SummaryArithmetic V ε
  digests : Digests S V C

/-- The statistics of an aggregate, in the order of the numbers that they take up. -/
def HorizonState.statistics {V C : Type} (state : HorizonState V C) : List (Statistic V) :=
  state.ic :: state.rankIc :: state.topBottomReturn :: state.quantiles

/-- `_states`, `_coverage` and `_last_session` -/
structure FactorPeriodAccumulator (S V C P : Type) where
  states : OrderedMap (PeriodKey P) (HorizonState V C)
  coverage : OrderedMap (PeriodKey P) (PeriodCoverage S)
  lastSession : Nat → Option S

def FactorPeriodAccumulator.empty {S V C P : Type} : FactorPeriodAccumulator S V C P :=
  ⟨∅, ∅, fun _ => none⟩

namespace PeriodRules
variable {S V C P ε : Type} (rules : PeriodRules S V C P ε)

/-- What `FactorDailyObservation` checks of the types of a row, before `validate_evidence` compares
them. -/
def IsTyped (row : FactorObservation S V) : Prop :=
  row.horizon ∈ rules.horizons.horizons
  ∧ (∀ item ∈ row.alphaExclusions, 0 < item.2) ∧ (row.alphaExclusions.map Prod.fst).Nodup
  ∧ (∀ item ∈ row.labelExclusions, 0 < item.2) ∧ (row.labelExclusions.map Prod.fst).Nodup
  ∧ row.values.quantileReturns.length = 5 ∧ row.values.quantileCounts.length = 5

instance (row : FactorObservation S V) : Decidable (rules.IsTyped row) := by
  unfold IsTyped
  infer_instance

/-- `validate_factor_observations` -/
def validateObservations [LinearOrder S] [DecidableEq V] (rows : List (FactorObservation S V)) :
    Except (PeriodError ε) (List (FactorObservation S V)) := do
  require (∀ row ∈ rows, rules.IsTyped row ∧
    row.IsValid rules.isFinite rules.inRange rules.difference) .invalidObservation
  require ((rows.map FactorObservation.coordinate).Pairwise (· < ·)) .coordinates
  pure rows

/-- The loop that reads the sessions of an `add` and keeps the last one of each horizon. -/
def checkSessions [LinearOrder S] : List (FactorObservation S V) → (Nat → Option S) →
    Except (PeriodError ε) (Nat → Option S)
  | [], previous => pure previous
  | row :: rows, previous => do
    require (rules.calendar.isDate row.session = true) .notDate
    require (∀ session ∈ previous row.horizon, session < row.session) .unordered
    checkSessions rows (Function.update previous row.horizon (some row.session))

/-- The buckets of a row. -/
def periodKeys (row : FactorObservation S V) : List (PeriodKey P) :=
  [(row.horizon, .all), (row.horizon, .year (rules.calendar.year row.session)),
    (row.horizon, .month (rules.calendar.month row.session))]

/-- The updates of an `add`, in the order of its two loops. -/
def bucketUpdates (rows : List (FactorObservation S V)) :
    List (PeriodKey P × FactorObservation S V) :=
  rows.flatMap fun row => (rules.periodKeys row).map (·, row)

/-- An aggregate is JSON while its running sums are finite. -/
def IsCompliant (state : HorizonState V C) : Prop :=
  ∀ statistic ∈ state.statistics, ∀ part ∈ statistic.fsumPartials, rules.isFinite part = true

instance (state : HorizonState V C) : Decidable (rules.IsCompliant state) := by
  unfold IsCompliant
  infer_instance

/-- `_copy_factor_state` -/
def copyFactorState (state : HorizonState V C) : Except (PeriodError ε) (HorizonState V C) := do
  require (rules.IsCompliant state) .outOfRange
  pure state

/-- The aggregate of a bucket after a row, where there may be none before. -/
def advanceState (state : Option (HorizonState V C)) (row : FactorObservation S V) :
    HorizonState V C :=
  (state.getD .empty).advance rules.summaries rules.digests row

/-- The coverage of a bucket after a row. -/
def advanceCoverage (coverage : Option (PeriodCoverage S)) (row : FactorObservation S V) :
    PeriodCoverage S :=
  (coverage.getD (.empty row.session)).add row

/-- `finalize_factor_state` -/
def finalizeFactorState (horizon : Nat) (state : HorizonState V C) :
    Except (PeriodError ε) (HorizonSummary V C) := do
  let copied ← rules.copyFactorState state
  (finalizeHorizon rules.summaries horizon copied).mapError .summary

end PeriodRules

namespace FactorPeriodAccumulator
variable {S V C P ε : Type} [LinearOrder P] (rules : PeriodRules S V C P ε)

/-- One turn of the inner loop: advance the aggregate of a bucket, then its coverage. -/
def addBucket (accumulator : FactorPeriodAccumulator S V C P)
    (update : PeriodKey P × FactorObservation S V) :
    Except (PeriodError ε) (FactorPeriodAccumulator S V C P) := do
  let _ ← rules.copyFactorState ((accumulator.states.lookup update.1).getD .empty)
  pure
    { accumulator with
      states := put rules.advanceState accumulator.states update
      coverage := put PeriodRules.advanceCoverage accumulator.coverage update }

/-- The loops over the rows and their buckets. Where one raises, those before it stay updated. -/
def addBuckets : List (PeriodKey P × FactorObservation S V) →
    FactorPeriodAccumulator S V C P →
    FactorPeriodAccumulator S V C P × Except (PeriodError ε) Unit
  | [], accumulator => (accumulator, .ok ())
  | update :: updates, accumulator =>
    match addBucket rules accumulator update with
    | .ok advanced => addBuckets updates advanced
    | .error error => (accumulator, .error error)

/-- The checks of an `add`. -/
def checkRows [LinearOrder S] [DecidableEq V] (accumulator : FactorPeriodAccumulator S V C P)
    (rows : List (FactorObservation S V)) : Except (PeriodError ε) (Nat → Option S) := do
  let observations ← rules.validateObservations rows
  rules.checkSessions observations accumulator.lastSession

def add [LinearOrder S] [DecidableEq V] (accumulator : FactorPeriodAccumulator S V C P)
    (rows : List (FactorObservation S V)) :
    FactorPeriodAccumulator S V C P × Except (PeriodError ε) Unit :=
  match checkRows rules accumulator rows with
  | .error error => (accumulator, .error error)
  | .ok previous =>
    match addBuckets rules (rules.bucketUpdates rows) accumulator with
    | (updated, .ok ()) => ({ updated with lastSession := previous }, .ok ())
    | (updated, .error error) => (updated, .error error)

/-- The summaries of the whole research period, with the checksums of their Alphas. -/
def fullSummary {A : Type} (alphaChecksums : Nat → A)
    (accumulator : FactorPeriodAccumulator S V C P) :
    Except (PeriodError ε) (List (A × HorizonSummary V C)) :=
  rules.horizons.horizons.mapM fun horizon => do
    let state ← found (accumulator.states.lookup (horizon, .all)) .missingHorizon
    let summary ← rules.finalizeFactorState horizon state
    pure (alphaChecksums horizon, summary)

/-- The statistics of one period. Its digests belong to the enclosing Result. -/
structure PeriodStatistic (S V P : Type) where
  key : PeriodKey P
  ic : CorrelationSummary V
  rankIc : CorrelationSummary V
  quantileReturns : List (Option V)
  topBottomReturn : Option V
  signalSessionCount : Nat
  quantileValidSessionCount : Nat
  coverage : PeriodCoverage S

def finish (accumulator : FactorPeriodAccumulator S V C P) :
    Except (PeriodError ε) (List (PeriodStatistic S V P)) :=
  (OrderedMap.sorted accumulator.states).entries.mapM fun entry => do
    let value ← rules.finalizeFactorState entry.1.1 entry.2
    let coverage ← found (accumulator.coverage.lookup entry.1) .missingCoverage
    pure
      { key := entry.1
        ic := value.ic
        rankIc := value.rankIc
        quantileReturns := value.quantileReturns
        topBottomReturn := value.topBottomReturn
        signalSessionCount := value.signalSessionCount
        quantileValidSessionCount := value.quantileValidSessionCount
        coverage := coverage }

end FactorPeriodAccumulator

end ThesisTrace.Factor
