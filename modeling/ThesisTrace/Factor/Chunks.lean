import Mathlib.Data.Prod.Lex
import ThesisTrace.Factor.Labels
import ThesisTrace.Library.KeyOrder

/-!
# Factor evaluation in chunks

A Run evaluates its Research Sessions in consecutive chunks, each on a slice of the market that
ends with the chunk's last session. `execute_alpha_factor_chunk` keeps the Alpha of a signal
session pending until the labels of every horizon are resolved: a chunk resolves those that
exit inside its slice, and the final chunk all others. `factor_resolution_coordinates` announces
what a chunk resolves.
-/

namespace ThesisTrace.Factor
open Transaction Strategy
open scoped KeyOrder

/-! ### Horizons -/

/-- The horizons of an evaluation, in the order in which their labels are resolved. -/
structure HorizonSet where
  horizons : List Nat
  nonempty : horizons ≠ []
  sorted : horizons.Pairwise (· < ·)

/-- `HORIZONS` -/
def HorizonSet.default : HorizonSet where
  horizons := [1, 5, 20]
  nonempty := by decide
  sorted := by decide

/-- The most signal sessions that can wait for a label: those whose largest horizon is open. -/
def HorizonSet.maxPendingAlphaSessions (H : HorizonSet) : Nat :=
  H.horizons.foldr max 0 + 1

/-- `_MAX_PENDING_ALPHA_SESSIONS` -/
example : HorizonSet.default.maxPendingAlphaSessions = 21 := rfl

/-! ### Summaries -/

/-- The binary64 and rational arithmetic of the aggregate statistics. -/
structure SummaryArithmetic (V ε : Type) where
  /-- `Fraction.from_float` -/
  exact : V → ℚ
  add : V → V → V
  sub : V → V → V
  /-- `abs(left) < abs(right)` -/
  smaller : V → V → Bool
  isZero : V → Bool
  /-- `math.fsum(values) / count` -/
  fsumMean : List V → Nat → Except ε V
  /-- `math.sqrt(float(variance))` -/
  sqrt : ℚ → Except ε V
  divide : V → V → V
  /-- `positive_count / count` -/
  fraction : Nat → Nat → V

structure Statistic (V : Type) where
  count : Nat
  positiveCount : Nat
  sum : ℚ
  squareSum : ℚ
  fsumPartials : List V
  deriving DecidableEq, Repr

def Statistic.empty {V : Type} : Statistic V := ⟨0, 0, 0, 0, []⟩

section Statistics
variable {V ε : Type} (a : SummaryArithmetic V ε)

/-- One partial sum: the rounded sum goes on, the rounding error stays. -/
def advancePartial (state : List V × V) (part : V) : List V × V :=
  let (updated, number) := state
  let (number, part) := if a.smaller number part then (part, number) else (number, part)
  let high := a.add number part
  let low := a.sub part (a.sub high number)
  (if a.isZero low then updated else updated ++ [low], high)

def advanceStatistic (statistic : Statistic V) : Option V → Statistic V
  | none => statistic
  | some number =>
    let (updated, last) := statistic.fsumPartials.foldl (advancePartial a) ([], number)
    { count := statistic.count + 1
      positiveCount := statistic.positiveCount + if 0 < a.exact number then 1 else 0
      sum := statistic.sum + a.exact number
      squareSum := statistic.squareSum + a.exact number ^ 2
      fsumPartials := updated ++ [last] }

def statisticMean (statistic : Statistic V) : Except ε (Option V) :=
  if statistic.count = 0 then .ok none
  else some <$> a.fsumMean statistic.fsumPartials statistic.count

structure CorrelationSummary (V : Type) where
  mean : Option V
  sampleDeviation : Option V
  icir : Option V
  positiveFraction : Option V
  validSessionCount : Nat
  deriving DecidableEq, Repr

def correlationSummary (statistic : Statistic V) : Except ε (CorrelationSummary V) := do
  let mean ← statisticMean a statistic
  let deviation ←
    if 2 ≤ statistic.count then
      some <$> a.sqrt ((statistic.squareSum - statistic.sum * statistic.sum / statistic.count) /
        (statistic.count - 1))
    else pure none
  pure
    { mean := mean
      sampleDeviation := deviation
      icir := mean.bind fun m => deviation.bind fun d => if a.isZero d then none else a.divide m d
      positiveFraction :=
        if statistic.count = 0 then none
        else some (a.fraction statistic.positiveCount statistic.count)
      validSessionCount := statistic.count }

/-- The aggregate of one horizon. The digests chain the observations in their order. -/
structure HorizonState (V C : Type) where
  signalSessionCount : Nat
  quantileValidSessionCount : Nat
  ic : Statistic V
  rankIc : Statistic V
  quantiles : List (Statistic V)
  topBottomReturn : Statistic V
  labelChecksum : Option C
  sourceChecksum : Option C
  deriving DecidableEq, Repr

def HorizonState.empty {V C : Type} : HorizonState V C :=
  ⟨0, 0, .empty, .empty, [.empty, .empty, .empty, .empty, .empty], .empty, none, none⟩

/-- `_advance_checksum` of the two payloads that are digested. -/
structure Digests (S V C : Type) where
  label : Option C → S × Nat → C
  source : Option C → FactorObservation S V → C

variable {S C : Type} (digest : Digests S V C)

def HorizonState.advance (state : HorizonState V C) (daily : FactorObservation S V) :
    HorizonState V C where
  signalSessionCount := state.signalSessionCount + 1
  quantileValidSessionCount :=
    state.quantileValidSessionCount + if daily.values.quantileReason.isNone then 1 else 0
  ic := advanceStatistic a state.ic daily.values.ic
  rankIc := advanceStatistic a state.rankIc daily.values.rankIc
  quantiles := List.zipWith (advanceStatistic a) state.quantiles daily.values.quantileReturns
  topBottomReturn := advanceStatistic a state.topBottomReturn daily.values.topBottomReturn
  labelChecksum := some (digest.label state.labelChecksum (daily.session, daily.sampleCount))
  sourceChecksum := some (digest.source state.sourceChecksum daily)

structure HorizonSummary (V C : Type) where
  horizon : Nat
  labelChecksum : Option C
  sourceChecksum : Option C
  ic : CorrelationSummary V
  rankIc : CorrelationSummary V
  quantileReturns : List (Option V)
  topBottomReturn : Option V
  signalSessionCount : Nat
  quantileValidSessionCount : Nat
  deriving DecidableEq, Repr

/-- `finalize_factor_state` for one horizon. A missing digest stands for that of no bytes. -/
def finalizeHorizon (horizon : Nat) (state : HorizonState V C) :
    Except ε (HorizonSummary V C) := do
  let ic ← correlationSummary a state.ic
  let rankIc ← correlationSummary a state.rankIc
  let quantileReturns ← state.quantiles.mapM (statisticMean a)
  let topBottomReturn ← statisticMean a state.topBottomReturn
  pure
    { horizon := horizon
      labelChecksum := state.labelChecksum
      sourceChecksum := state.sourceChecksum
      ic := ic
      rankIc := rankIc
      quantileReturns := quantileReturns
      topBottomReturn := topBottomReturn
      signalSessionCount := state.signalSessionCount
      quantileValidSessionCount := state.quantileValidSessionCount }

end Statistics

/-! ### Evidence -/

section Evidence
variable {S I V ε : Type}

/-- The numbers of an observation. -/
def FactorValues.numbers (values : FactorValues V) : List (Option V) :=
  values.ic :: values.rankIc :: values.topBottomReturn :: values.quantileReturns

/-- `FactorDailyObservation`, whose numbers are finite or missing, with its `validate_evidence`;
`inRange` is `-1 <= value <= 1`. -/
def FactorObservation.IsValid (isFinite inRange : V → Bool) (difference : V → V → V)
    (row : FactorObservation S V) : Prop :=
  (∀ number ∈ row.values.numbers, number.all isFinite)
  ∧ row.alphaCandidateCount = row.alphaSampleCount + (row.alphaExclusions.map Prod.snd).sum
  ∧ row.alphaSampleCount = row.sampleCount + (row.labelExclusions.map Prod.snd).sum
  ∧ (row.labelStatus = .rightCensoredByResearchPeriodEnd ↔ row.labelExitSession.isNone)
  ∧ (row.labelStatus = .rightCensoredByResearchPeriodEnd → row.sampleCount = 0
    ∧ row.labelExclusions = if row.alphaSampleCount = 0 then [] else
      [(.rightCensoredByResearchPeriodEnd, row.alphaSampleCount)])
  ∧ (row.labelStatus = .withinResearchPeriod → row.labelEntrySession.isSome
    ∧ .rightCensoredByResearchPeriodEnd ∉ row.labelExclusions.map Prod.fst)
  ∧ row.values.ic.all inRange
  ∧ row.values.rankIc.all inRange
  ∧ (row.values.correlationReason = none ↔ row.values.ic.isSome ∧ row.values.rankIc.isSome)
  ∧ (row.sampleCount < 30 ↔ row.values.quantileReason = some .sampleInsufficient)
  ∧ (row.sampleCount < 30 → row.values.correlationReason = some .sampleInsufficient)
  ∧ row.values.quantileCounts.sum = (if row.sampleCount < 30 then 0 else row.sampleCount)
  ∧ row.values.quantileReturns.map Option.isNone = row.values.quantileCounts.map (· == 0)
  ∧ row.values.topBottomReturn =
    row.values.quantileReturns.head?.join.bind fun bottom =>
      row.values.quantileReturns.getLast?.join.map fun top => difference top bottom

instance [DecidableEq V] (isFinite inRange : V → Bool) (difference : V → V → V)
    (row : FactorObservation S V) : Decidable (row.IsValid isFinite inRange difference) := by
  unfold FactorObservation.IsValid
  infer_instance

/-- The coordinate of a row in the evidence. -/
def FactorObservation.coordinate (row : FactorObservation S V) : Nat ×ₗ S :=
  toLex (row.horizon, row.session)

inductive ChunkError (S I ε : Type)
  /-- Research Chunk sessions are outside its data slice -/
  | outsideSlice
  /-- Alpha Matrix session is invalid -/
  | alphaMatrix
  /-- Pending Alpha continuation is invalid -/
  | pendingAlpha
  /-- Pending Alpha continuation exceeded its bound -/
  | pendingBound
  /-- A look-up of a session that is not there. -/
  | missingSession
  | factor (error : FactorError S I ε)
  /-- An observation that `FactorDailyObservation` rejects. -/
  | invalidObservation
  /-- Factor daily coordinates must be unique and ordered -/
  | coordinates
  /-- Final Research Chunk has unresolved Alpha Labels -/
  | unresolved
  | summary (error : ε)
  /-- Factor resolution boundary is invalid -/
  | boundary
  deriving DecidableEq, Repr

variable [LinearOrder S]

/-- `validate_factor_observations` -/
def validateFactorObservations [DecidableEq V] (isFinite inRange : V → Bool)
    (difference : V → V → V) (rows : List (FactorObservation S V)) :
    Except (ChunkError S I ε) (List (FactorObservation S V)) := do
  require (∀ row ∈ rows, row.IsValid isFinite inRange difference) .invalidObservation
  require ((rows.map FactorObservation.coordinate).Pairwise (· < ·)) .coordinates
  pure rows

/-- `factor_resolution_coordinates` -/
def factorResolutionCoordinates (H : HorizonSet) (sessions : List S) (before after : Nat)
    (final : Bool) : Except (ChunkError S I ε) (List (Nat × S)) := do
  require (sessions.Pairwise (· < ·) ∧ before ≤ after ∧ after ≤ sessions.length ∧
    (final → after = sessions.length)) .boundary
  pure (H.horizons.flatMap fun horizon =>
    ((sessions.take (if final then sessions.length else after - horizon - 1)).drop
      (before - horizon - 1)).map fun session => (horizon, session))

end Evidence

/-! ### Pending Alphas -/

section Pending
variable {S I V ε : Type} [LinearOrder S] [LinearOrder I]

/-- What the evaluation of the Alpha says of each session: the sorted members of the Universe
and the values of those that have one. A slice with the Alpha's look-back before a session does
not change it. -/
structure EvaluatedAlpha (S I V : Type) [LinearOrder I] where
  universeMembers : S → List I
  sorted : ∀ session, (universeMembers session).Pairwise (· < ·)
  values : S → AlphaSession I V
  members : ∀ session, ((values session).values.map Prod.fst).Sublist (universeMembers session)

structure PendingAlpha (S V : Type) where
  session : S
  values : List (Option V)
  coverageLoss : AlphaExclusion → Nat
  remainingHorizons : List Nat

/-- The walk of `_compact_pending_alpha` along the members: `None` where there is no value. -/
def compactValues : List I → List (I × V) → Except (ChunkError S I ε) (List (Option V))
  | members, [] => .ok (members.map fun _ => none)
  | [], _ :: _ => .error .alphaMatrix
  | member :: members, item :: items =>
    if member = item.1 then (some item.2 :: ·) <$> compactValues members items
    else if member < item.1 then (none :: ·) <$> compactValues members (item :: items)
    else .error .alphaMatrix

/-- `_compact_pending_alpha` -/
def compactPendingAlpha (H : HorizonSet) (members : List I) (session : S)
    (row : AlphaSession I V) : Except (ChunkError S I ε) (PendingAlpha S V) := do
  let values ←
    if row.values.length = members.length then do
      require (row.values.map Prod.fst = members) .alphaMatrix
      pure (row.values.map fun item => some item.2)
    else compactValues members row.values
  pure
    { session := session
      values := values
      coverageLoss := row.coverageLoss
      remainingHorizons := H.horizons }

/-- The values of the members that have one. -/
def expandValues (members : List I) (values : List (Option V)) : List (I × V) :=
  (members.zip values).filterMap fun entry => entry.2.map fun value => (entry.1, value)

omit [LinearOrder I] in
lemma expandValues_sublist (members : List I) (values : List (Option V)) :
    ((expandValues members values).map Prod.fst).Sublist members := by
  induction members generalizing values with
  | nil => exact .slnil
  | cons member members ih =>
    cases values with
    | nil => exact List.nil_sublist _
    | cons value values =>
      cases value with
      | none => exact (ih values).cons _
      | some value => exact (ih values).cons_cons _

variable (alpha : EvaluatedAlpha S I V)

/-- `_expand_pending_alpha` -/
def expandPendingAlpha (item : PendingAlpha S V) :
    Except (ChunkError S I ε) (S × AlphaSession I V) := do
  let members := alpha.universeMembers item.session
  require (item.values.length = members.length) .pendingAlpha
  pure (item.session,
    { values := expandValues members item.values
      coverageLoss := item.coverageLoss
      sorted := List.pairwise_map.mp
        ((alpha.sorted item.session).sublist (expandValues_sublist members item.values)) })

/-- Whether a chunk resolves the labels of a horizon at a signal session. -/
def resolvable (calendar : List S) (lastNewIndex : Nat) (final : Bool) (horizon : Nat)
    (item : PendingAlpha S V) : Bool :=
  horizon ∈ item.remainingHorizons ∧
    (final ∨ calendar.idxOf item.session + 1 + horizon ≤ lastNewIndex)

/-- The signal sessions that a chunk resolves for one horizon, and what stays pending. -/
def resolveHorizon (calendar : List S) (lastNewIndex : Nat) (final : Bool)
    (state : List (Nat × List S) × List (PendingAlpha S V)) (horizon : Nat) :
    List (Nat × List S) × List (PendingAlpha S V) :=
  let isResolvable := resolvable calendar lastNewIndex final horizon
  (state.1 ++ [(horizon, (state.2.filter isResolvable).map PendingAlpha.session)],
    state.2.map fun item =>
      if isResolvable item then
        { item with
          remainingHorizons := item.remainingHorizons.erase horizon }
      else item)

end Pending

/-! ### Chunks -/

section Chunks
variable {S I V C ε : Type} [LinearOrder S] [LinearOrder I] [DecidableEq V]

/-- The part of the market that a chunk reads. -/
def MarketPanel.slice (market : MarketPanel S I V) (start stop : Nat) : MarketPanel S I V :=
  { market with
    sessions := (market.sessions.take stop).drop start
    sessions_sorted :=
      market.sessions_sorted.sublist ((List.drop_sublist _ _).trans (List.take_sublist _ _)) }

/-- What one chunk hands on to the next. -/
structure FactorContinuation (S V C : Type) where
  pendingAlpha : List (PendingAlpha S V)
  factorState : Nat → HorizonState V C

def FactorContinuation.empty : FactorContinuation S V C := ⟨[], fun _ => .empty⟩

structure ChunkOutcome (S V C : Type) where
  continuation : FactorContinuation S V C
  factorDailyObservations : List (FactorObservation S V)
  factorSummary : Option (List (HorizonSummary V C))

/-- What the chunks of one Run share. -/
structure FactorRun (S I V C ε : Type) [LinearOrder S] [LinearOrder I] where
  horizons : HorizonSet
  arithmetic : Binary64 V ε
  summaries : SummaryArithmetic V ε
  digests : Digests S V C
  isFinite : V → Bool
  /-- `-1 <= value <= 1` -/
  inRange : V → Bool
  market : MarketPanel S I V
  alpha : EvaluatedAlpha S I V
  effectiveLookback : Nat

variable (run : FactorRun S I V C ε)

/-- The factor observation of one resolved label. -/
def FactorRun.resolveSession (slice : MarketPanel S I V)
    (matrix : List (S × AlphaSession I V)) (horizon : Nat) (session : S) :
    Except (ChunkError S I ε) (FactorObservation S V) := do
  let row ← found (matrix.find? fun row => row.1 = session) .missingSession
  if h : slice.sessions.idxOf session < slice.sessions.length then
    (factorDayColumnar run.arithmetic slice (fun _ => row.2) horizon
      ⟨slice.sessions.idxOf session, h⟩).mapError .factor
  else .error .missingSession

/-- `advance_factor_state_from_daily` -/
def FactorRun.advanceFactorState (state : Nat → HorizonState V C)
    (daily : List (Nat × List (FactorObservation S V))) : Nat → HorizonState V C :=
  daily.foldl (fun state entry => Function.update state entry.1
    (entry.2.foldl (HorizonState.advance run.summaries run.digests) (state entry.1))) state

/-- `execute_alpha_factor_chunk` -/
def FactorRun.executeChunk (slice : MarketPanel S I V) (researchSessions : List S) (final : Bool)
    (state : FactorContinuation S V C) :
    Except (ChunkError S I ε) (ChunkOutcome S V C) := do
  let calendar := slice.sessions
  require (∀ session ∈ researchSessions, session ∈ calendar) .outsideSlice
  let compacted ← researchSessions.mapM fun session =>
    compactPendingAlpha run.horizons (run.alpha.universeMembers session) session
      (run.alpha.values session)
  let pending := state.pendingAlpha ++ compacted
  require (pending.length ≤ run.horizons.maxPendingAlphaSessions + researchSessions.length)
    .pendingBound
  let expanded ← pending.mapM (expandPendingAlpha run.alpha)
  require (∀ row ∈ expanded, row.1 ∈ calendar) .missingSession
  let matrix := expanded.mergeSort fun x y => calendar.idxOf x.1 ≤ calendar.idxOf y.1
  let last ← found researchSessions.getLast? .missingSession
  let resolved := run.horizons.horizons.foldl
    (resolveHorizon calendar (calendar.idxOf last) final) ([], pending)
  let daily ← resolved.1.mapM fun entry => do
    let days ← entry.2.mapM (run.resolveSession slice matrix entry.1)
    pure (entry.1, days)
  let rows ← validateFactorObservations run.isFinite run.inRange run.arithmetic.difference
    (daily.flatMap Prod.snd)
  let factorState := run.advanceFactorState state.factorState daily
  let pending := resolved.2.filter fun item => item.remainingHorizons ≠ []
  require (pending.length ≤ run.horizons.maxPendingAlphaSessions) .pendingBound
  let summary ←
    if final then do
      require (pending = []) .unresolved
      some <$> (run.horizons.horizons.mapM fun horizon =>
        finalizeHorizon run.summaries horizon (factorState horizon)).mapError .summary
    else pure none
  pure
    { continuation := ⟨pending, factorState⟩
      factorDailyObservations := rows
      factorSummary := summary }

/-- The sessions of the slice that a chunk reads: from the context before its first session to
its last session. -/
def FactorRun.chunkSlice (researchSessions : List S) :
    Except (ChunkError S I ε) (MarketPanel S I V) := do
  let first ← found researchSessions.head? .missingSession
  let last ← found researchSessions.getLast? .missingSession
  require (first ∈ run.market.sessions ∧ last ∈ run.market.sessions) .missingSession
  let context := max run.effectiveLookback (max run.horizons.maxPendingAlphaSessions 2)
  pure (run.market.slice (run.market.sessions.idxOf first - context)
    (run.market.sessions.idxOf last + 1))

/-- The chunks of a plan, one after the other. A chunk of warm-up sessions has no Research Session
and calculates nothing. -/
def FactorRun.executeChunks : List (List S) → FactorContinuation S V C →
    Except (ChunkError S I ε) (List (ChunkOutcome S V C))
  | [], _ => .ok []
  | chunk :: chunks, state => do
    let outcome ←
      if chunk = [] then pure ⟨state, [], none⟩
      else do
        let slice ← run.chunkSlice chunk
        run.executeChunk slice chunk chunks.isEmpty state
    let outcomes ← executeChunks chunks outcome.continuation
    pure (outcome :: outcomes)

end Chunks

end ThesisTrace.Factor
