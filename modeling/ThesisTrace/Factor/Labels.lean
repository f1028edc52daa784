import ThesisTrace.Library.Transaction
import ThesisTrace.Strategy.Orders

/-!
# Forward labels and factor observations

`research_kernel/factor.py` evaluates an Alpha against the forward return of each horizon twice:
`buildForwardLabels` walks the Alpha values of one signal session after the other, while
`prepareColumnarForwardLabels` classifies every coordinate of the market once and
`factorDaysByHorizon` selects the coordinates of the Alpha values. Prices, Alphas and labels are
binary64 numbers, whose arithmetic is a parameter.
-/

namespace ThesisTrace.Factor
open Transaction Strategy

/-- The binary64 arithmetic of an evaluation. The sums may overflow, which raises. -/
structure Binary64 (V ε : Type) where
  isZero : V → Bool
  /-- `exit_open / entry_open - 1.0`, unless that is not finite. -/
  forwardReturn : V → V → Option V
  /-- `-1.0` -/
  totalLoss : V
  /-- `_pearson_arrays` -/
  pearson : List V → List V → Except ε (Option V)
  /-- `_average_ranks_array` -/
  averageRanks : List V → Except ε (List V)
  /-- `minimum(5, ((rank - 1) * 5 / count) + 1)` -/
  quantile : V → Nat → Nat
  /-- `math.fsum(values) / len(values)` -/
  mean : List V → Except ε V
  /-- `left - right` -/
  difference : V → V → V

/-- Whole numbers, in which a division leaves a rounded return. -/
def wholeNumbers : Binary64 ℤ Unit where
  isZero value := value == 0
  forwardReturn exit entry := some (exit / entry - 1)
  totalLoss := -1
  pearson _ _ := .ok none
  averageRanks values := .ok values
  quantile _ _ := 1
  mean values := .ok values.sum
  difference left right := left - right

/-- The market data that labels read. `adjustedOpen` is the price of `execution_prices`, and the
entry of the matrix of adjusted opens, in which a missing price is not finite. -/
structure MarketPanel (S I V : Type) [LinearOrder S] where
  sessions : List S
  sessions_sorted : sessions.Pairwise (· < ·)
  adjustedOpen : S → I → Option V
  tradingState : S → I → Option TradingState
  listedTo : I → Option S

inductive AlphaExclusion
  | industryGroupTooSmall
  | missingExpression
  | missingIndustry
  deriving DecidableEq, Repr

/-- One session of an Alpha matrix. The evaluators emit its values sorted by instrument. -/
structure AlphaSession (I V : Type) [LinearOrder I] where
  values : List (I × V)
  coverageLoss : AlphaExclusion → Nat
  sorted : values.Pairwise fun a b => a.1 < b.1

inductive LabelExclusion
  | confirmedMarketOpenUnavailable
  | dataUnavailable
  | rightCensoredByResearchPeriodEnd
  deriving DecidableEq, Repr

/-- What is wrong with a label, by the message of its error. -/
inductive LabelFault
  /-- invalid Label entry Open -/
  | invalidEntry
  /-- unexplained Label entry Open -/
  | unexplainedEntry
  /-- unexplained Label exit Open -/
  | unexplainedExit
  /-- non-finite Label -/
  | nonFinite
  deriving DecidableEq, Repr

/-- `{fault} for {instrument} on {session}` -/
structure LabelError (S I : Type) where
  fault : LabelFault
  instrument : I
  session : S
  deriving DecidableEq, Repr

inductive FactorError (S I ε : Type)
  | label (error : LabelError S I)
  /-- Factor label sample accounting is inconsistent -/
  | accounting
  /-- Factor sample coordinates are misaligned -/
  | misaligned
  | arithmetic (error : ε)
  deriving DecidableEq, Repr

inductive UnavailableReason
  | terminalDelisting
  | confirmedMarketOpenUnavailable
  | dataUnavailable
  | unexplainedMissingOrInvalidData
  deriving DecidableEq, Repr

section Reasons
variable {S : Type} [LinearOrder S]

def unavailableReason (tradingState : Option TradingState) (listedTo : Option S) (session : S)
    (validEntry : Bool) : UnavailableReason :=
  if ∃ last ∈ listedTo, last ≤ session then
    if validEntry then .terminalDelisting else .confirmedMarketOpenUnavailable
  else if tradingState = some .fullSessionSuspension then .confirmedMarketOpenUnavailable
  else if tradingState = some .dataUnavailable then .dataUnavailable
  else .unexplainedMissingOrInvalidData

end Reasons

/-! ### Observations -/

inductive CorrelationReason
  | sampleInsufficient
  | constantArray
  deriving DecidableEq, Repr

structure FactorValues (V : Type) where
  ic : Option V
  rankIc : Option V
  correlationReason : Option CorrelationReason
  /-- The groups `q1` to `q5`. -/
  quantileReturns : List (Option V)
  quantileCounts : List Nat
  topBottomReturn : Option V
  quantileReason : Option CorrelationReason
  deriving DecidableEq, Repr

inductive LabelStatus
  | rightCensoredByResearchPeriodEnd
  | withinResearchPeriod
  deriving DecidableEq, Repr

structure FactorObservation (S V : Type) where
  session : S
  horizon : Nat
  labelEntrySession : Option S
  labelExitSession : Option S
  labelStatus : LabelStatus
  alphaCandidateCount : Nat
  alphaSampleCount : Nat
  alphaExclusions : List (AlphaExclusion × Nat)
  sampleCount : Nat
  labelExclusions : List (LabelExclusion × Nat)
  values : FactorValues V
  deriving DecidableEq, Repr

/-- A dictionary of counts in the order of its keys. A key is present when it was counted. -/
def counted {κ : Type} (keys : List κ) (counts : κ → Nat) : List (κ × Nat) :=
  (keys.map fun key => (key, counts key)).filter fun entry => entry.2 ≠ 0

def AlphaExclusion.all : List AlphaExclusion :=
  [.industryGroupTooSmall, .missingExpression, .missingIndustry]

def LabelExclusion.all : List LabelExclusion :=
  [.confirmedMarketOpenUnavailable, .dataUnavailable, .rightCensoredByResearchPeriodEnd]

section Values
variable {S I V ε : Type} (b : Binary64 V ε)

def meanOrNone (values : List V) : Except ε (Option V) :=
  if values = [] then .ok none else some <$> b.mean values

/-- The labels of one quantile group. -/
def groupLabels (groups : List Nat) (label : List V) (group : Nat) : List V :=
  ((groups.zip label).filter fun entry => entry.1 = group).map Prod.snd

def factorArrayValues (alpha label : List V) : Except (FactorError S I ε) (FactorValues V) := do
  require (alpha.length = label.length) .misaligned
  if alpha.length < 30 then
    pure
      { ic := none
        rankIc := none
        correlationReason := some .sampleInsufficient
        quantileReturns := [none, none, none, none, none]
        quantileCounts := [0, 0, 0, 0, 0]
        topBottomReturn := none
        quantileReason := some .sampleInsufficient }
  else
    let ic ← (b.pearson alpha label).mapError .arithmetic
    let alphaRanks ← (b.averageRanks alpha).mapError .arithmetic
    let labelRanks ← (b.averageRanks label).mapError .arithmetic
    let rankIc ← (b.pearson alphaRanks labelRanks).mapError .arithmetic
    let groups := alphaRanks.map fun rank => b.quantile rank alpha.length
    let q1 ← (meanOrNone b (groupLabels groups label 1)).mapError .arithmetic
    let q2 ← (meanOrNone b (groupLabels groups label 2)).mapError .arithmetic
    let q3 ← (meanOrNone b (groupLabels groups label 3)).mapError .arithmetic
    let q4 ← (meanOrNone b (groupLabels groups label 4)).mapError .arithmetic
    let q5 ← (meanOrNone b (groupLabels groups label 5)).mapError .arithmetic
    pure
      { ic := ic
        rankIc := rankIc
        correlationReason := if ic.isNone ∨ rankIc.isNone then some .constantArray else none
        quantileReturns := [q1, q2, q3, q4, q5]
        quantileCounts := [1, 2, 3, 4, 5].map groups.count
        topBottomReturn := q1.bind fun bottom => q5.map fun top => b.difference top bottom
        quantileReason := none }

def factorValues (alpha label : List V) : Except (FactorError S I ε) (FactorValues V) := do
  require (alpha.length = label.length) .misaligned
  factorArrayValues b alpha label

/-- `_factor_observation`. Its metrics are computed before it is called. -/
def factorObservation (session : S) (horizon : Nat) (entrySession exitSession : Option S)
    (alphaCount : Nat) (alphaExclusions : AlphaExclusion → Nat)
    (labelExclusions : LabelExclusion → Nat) (sampleCount : Nat) (metrics : FactorValues V) :
    Except (FactorError S I ε) (FactorObservation S V) := do
  require (sampleCount + (LabelExclusion.all.map labelExclusions).sum = alphaCount) .accounting
  pure
    { session := session
      horizon := horizon
      labelEntrySession := entrySession
      labelExitSession := exitSession
      labelStatus :=
        if exitSession.isNone then .rightCensoredByResearchPeriodEnd else .withinResearchPeriod
      alphaCandidateCount := alphaCount + (AlphaExclusion.all.map alphaExclusions).sum
      alphaSampleCount := alphaCount
      alphaExclusions := counted AlphaExclusion.all alphaExclusions
      sampleCount := sampleCount
      labelExclusions := counted LabelExclusion.all labelExclusions
      values := metrics }

end Values

section Rows
variable {S I V ε : Type} [LinearOrder S] [LinearOrder I]
variable (b : Binary64 V ε) (market : MarketPanel S I V) (alphaBySession : S → AlphaSession I V)

/-- A session of the calendar, by its position, at which both `calendar.index` and
`session_positions` find it. -/
abbrev MarketPanel.Position (market : MarketPanel S I V) : Type := Fin market.sessions.length

/-! ### The row evaluation -/

/-- The label of one Alpha value, or the reason for which it has none. -/
inductive Resolution (V : Type)
  | labelled (label : V)
  | excluded (reason : LabelExclusion)
  deriving DecidableEq, Repr

/-- One turn of the inner loop of `build_forward_labels`. -/
def resolveLabel (horizon : Nat) (signal : market.Position) (instrument : I) :
    Except (LabelError S I) (Resolution V) :=
  if hexit : signal + 1 + horizon < market.sessions.length then
    let entrySession := market.sessions.get ⟨signal + 1, by omega⟩
    let exitSession := market.sessions.get ⟨signal + 1 + horizon, hexit⟩
    match market.adjustedOpen entrySession instrument with
    | none =>
      match unavailableReason (market.tradingState entrySession instrument)
          (market.listedTo instrument) entrySession false with
      | .unexplainedMissingOrInvalidData => .error ⟨.unexplainedEntry, instrument, entrySession⟩
      | .dataUnavailable => .ok (.excluded .dataUnavailable)
      | .confirmedMarketOpenUnavailable | .terminalDelisting =>
        .ok (.excluded .confirmedMarketOpenUnavailable)
    | some entryOpen =>
      if b.isZero entryOpen then .error ⟨.invalidEntry, instrument, entrySession⟩
      else
        match market.adjustedOpen exitSession instrument with
        | none =>
          match unavailableReason (market.tradingState exitSession instrument)
              (market.listedTo instrument) exitSession true with
          | .terminalDelisting => .ok (.labelled b.totalLoss)
          | .unexplainedMissingOrInvalidData =>
            .error ⟨.unexplainedExit, instrument, exitSession⟩
          | .dataUnavailable => .ok (.excluded .dataUnavailable)
          | .confirmedMarketOpenUnavailable => .ok (.excluded .confirmedMarketOpenUnavailable)
        | some exitOpen =>
          match b.forwardReturn exitOpen entryOpen with
          | some label => .ok (.labelled label)
          | none => .error ⟨.nonFinite, instrument, market.sessions.get signal⟩
  else .ok (.excluded .rightCensoredByResearchPeriodEnd)

structure LabelResolution (I V : Type) where
  instrument : I
  alpha : V
  resolution : Resolution V
  deriving DecidableEq, Repr

structure LabelSample (I V : Type) where
  instrument : I
  alpha : V
  label : V
  deriving DecidableEq, Repr

/-- What the inner loop collects. -/
structure LabelRows (I V : Type) where
  samples : List (LabelSample I V)
  resolutions : List (LabelResolution I V)
  unavailable : LabelExclusion → Nat

def LabelRows.empty : LabelRows I V := ⟨[], [], fun _ => 0⟩

def LabelRows.add (rows : LabelRows I V) (alpha : I × V) : Resolution V → LabelRows I V
  | .labelled label =>
    { rows with
      samples := rows.samples ++ [⟨alpha.1, alpha.2, label⟩]
      resolutions := rows.resolutions ++ [⟨alpha.1, alpha.2, .labelled label⟩] }
  | .excluded reason =>
    { rows with
      resolutions := rows.resolutions ++ [⟨alpha.1, alpha.2, .excluded reason⟩]
      unavailable := Function.update rows.unavailable reason (rows.unavailable reason + 1) }

structure SessionLabels (S I V : Type) [LinearOrder I] where
  session : S
  alphaValues : List (I × V)
  alphaCoverageLoss : AlphaExclusion → Nat
  entrySession : Option S
  exitSession : Option S
  samples : List (LabelSample I V)
  resolutions : List (LabelResolution I V)
  unavailable : LabelExclusion → Nat

/-- `build_forward_labels` for one horizon and one signal session. -/
def sessionLabels (horizon : Nat) (signal : market.Position) :
    Except (LabelError S I) (SessionLabels S I V) := do
  let signalSession := market.sessions.get signal
  let alphaValues := (alphaBySession signalSession).values
  let rows ← alphaValues.foldlM
    (fun rows alpha => rows.add alpha <$> resolveLabel b market horizon signal alpha.1)
    LabelRows.empty
  pure
    { session := signalSession
      alphaValues := alphaValues
      alphaCoverageLoss := (alphaBySession signalSession).coverageLoss
      entrySession := market.sessions[signal.val + 1]?
      exitSession := market.sessions[signal.val + 1 + horizon]?
      samples := rows.samples.mergeSort fun x y => x.instrument ≤ y.instrument
      resolutions := rows.resolutions.mergeSort fun x y => x.instrument ≤ y.instrument
      unavailable := rows.unavailable }

/-- The labels of each horizon. -/
def buildForwardLabels (signals : List market.Position) (horizons : List Nat) :
    Except (FactorError S I ε) (List (Nat × List (SessionLabels S I V))) :=
  horizons.mapM fun horizon => do
    let sessions ← signals.mapM fun signal =>
      (sessionLabels b market alphaBySession horizon signal).mapError .label
    pure (horizon, sessions)

def factorDay (samples : List (LabelSample I V)) : Except (FactorError S I ε) (FactorValues V) :=
  factorValues b (samples.map LabelSample.alpha) (samples.map LabelSample.label)

def factorObservationFromLabels (horizon : Nat) (item : SessionLabels S I V) :
    Except (FactorError S I ε) (FactorObservation S V) := do
  let metrics ← factorDay b item.samples
  factorObservation item.session horizon item.entrySession item.exitSession
    item.alphaValues.length item.alphaCoverageLoss item.unavailable item.samples.length metrics

/-- The daily observations of `evaluate_factor`. -/
def evaluateFactor (labels : List (Nat × List (SessionLabels S I V))) :
    Except (FactorError S I ε) (List (Nat × List (FactorObservation S V))) :=
  labels.mapM fun entry => do
    let daily ← entry.2.mapM (factorObservationFromLabels b entry.1)
    pure (entry.1, daily)

/-- `build_forward_labels` followed by `evaluate_factor`. -/
def rowEvaluation (signals : List market.Position) (horizons : List Nat) :
    Except (FactorError S I ε) (List (Nat × List (FactorObservation S V))) := do
  let labels ← buildForwardLabels b market alphaBySession signals horizons
  evaluateFactor b labels

/-! ### The columnar evaluation -/

/-- The codes of the state matrix. -/
inductive LabelState
  | valid
  | unavailable
  | invalidZeroEntry
  | invalidEntry
  | invalidExit
  | invalidNonFinite
  | censored
  | dataUnavailable
  deriving DecidableEq, Repr

/-- The codes of the matrix of missing reasons. -/
inductive MissingReason
  | none
  | terminalDelisting
  | unexplained
  | dataUnavailable
  deriving DecidableEq, Repr

/-- An entry of the matrix of adjusted opens. -/
def adjustedOpens (instrument : I) (index : Nat) : Option V :=
  market.sessions[index]?.bind fun session => market.adjustedOpen session instrument

/-- An entry of the matrix of missing reasons, which is zero where the open is finite. -/
def missingReason (instrument : I) (index : Nat) : MissingReason :=
  match market.sessions[index]? with
  | none => .none
  | some session =>
    if (market.adjustedOpen session instrument).isSome then .none
    else
      match unavailableReason (market.tradingState session instrument)
          (market.listedTo instrument) session true with
      | .terminalDelisting => .terminalDelisting
      | .unexplainedMissingOrInvalidData => .unexplained
      | .dataUnavailable => .dataUnavailable
      | .confirmedMarketOpenUnavailable => .none

/-- One entry of the state matrix and of the label matrix; a label that is not finite is absent. -/
structure LabelCell (V : Type) where
  state : LabelState
  label : Option V
  deriving DecidableEq, Repr

/-- The masked assignments to one entry of the projected columns, in order. -/
def classifyCell (entryOpen exitOpen : Option V) (entryReason exitReason : MissingReason) :
    LabelCell V := Id.run do
  let mut cell : LabelCell V := ⟨.unavailable, none⟩
  let zeroEntry := entryOpen.any b.isZero
  if zeroEntry then
    cell := { cell with state := .invalidZeroEntry }
  if entryOpen.isSome ∧ exitOpen.isSome ∧ ¬zeroEntry then
    cell :=
      { state := .valid
        label := exitOpen.bind fun exit => entryOpen.bind fun entry => b.forwardReturn exit entry }
  if entryOpen.isNone ∧ entryReason = .dataUnavailable then
    cell := { cell with state := .dataUnavailable }
  if entryOpen.isNone ∧ entryReason = .unexplained then
    cell := { cell with state := .invalidEntry }
  let missingExit := entryOpen.isSome ∧ exitOpen.isNone ∧ ¬zeroEntry
  if missingExit ∧ exitReason = .terminalDelisting then
    cell := ⟨.valid, some b.totalLoss⟩
  if missingExit ∧ exitReason = .dataUnavailable then
    cell := { cell with state := .dataUnavailable }
  if missingExit ∧ exitReason = .unexplained then
    cell := { cell with state := .invalidExit }
  if cell.state = .valid ∧ cell.label.isNone then
    cell := { cell with state := .invalidNonFinite }
  return cell

/-- `prepare_columnar_forward_labels`: the entry of one horizon, instrument and column. -/
def prepareColumnarForwardLabels (horizon : Nat) (instrument : I) (index : Nat) : LabelCell V :=
  if index < market.sessions.length - horizon - 1 then
    classifyCell b (adjustedOpens market instrument (1 + index))
      (adjustedOpens market instrument (1 + horizon + index))
      (missingReason market instrument (1 + index))
      (missingReason market instrument (1 + horizon + index))
  else ⟨.censored, none⟩

/-- The codes that raise, in the order in which they are looked for. -/
def invalidStates : List (LabelState × LabelFault) :=
  [(.invalidZeroEntry, .invalidEntry), (.invalidEntry, .unexplainedEntry),
    (.invalidExit, .unexplainedExit), (.invalidNonFinite, .nonFinite)]

/-- The session that the error of a fault names. -/
def LabelFault.session (entrySession exitSession signalSession : S) : LabelFault → S
  | .invalidEntry | .unexplainedEntry => entrySession
  | .unexplainedExit => exitSession
  | .nonFinite => signalSession

/-- `_raise_selected_label_error` -/
def raiseSelectedLabelError (selected : List (I × LabelState))
    (entrySession exitSession signalSession : S) : Except (LabelError S I) Unit :=
  invalidStates.forM fun entry =>
    match selected.find? fun value => value.2 = entry.1 with
    | none => .ok ()
    | some value =>
      .error ⟨entry.2, value.1, entry.2.session entrySession exitSession signalSession⟩

/-- The codes that are counted as exclusions. -/
def LabelState.exclusions (states : List LabelState) : LabelExclusion → Nat
  | .confirmedMarketOpenUnavailable => states.count .unavailable
  | .rightCensoredByResearchPeriodEnd => states.count .censored
  | .dataUnavailable => states.count .dataUnavailable

/-- The coordinates of the Alpha values of a signal session. -/
def selectedCells (horizon : Nat) (signal : market.Position) : List ((I × V) × LabelCell V) :=
  (alphaBySession (market.sessions.get signal)).values.map fun alpha =>
    (alpha, prepareColumnarForwardLabels b market horizon alpha.1 signal)

/-- The Alphas and the labels of the valid coordinates. -/
def includedArrays (selected : List ((I × V) × LabelCell V)) : List V × List V :=
  let included := selected.filter fun entry => entry.2.state = .valid
  (included.map fun entry => entry.1.2, included.filterMap fun entry => entry.2.label)

/-- `factor_days_by_horizon` for one horizon and one signal session. -/
def factorDayColumnar (horizon : Nat) (signal : market.Position) :
    Except (FactorError S I ε) (FactorObservation S V) := do
  let signalSession := market.sessions.get signal
  let entrySession := market.sessions[signal.val + 1]?
  let exitSession := market.sessions[signal.val + 1 + horizon]?
  let selected := selectedCells b market alphaBySession horizon signal
  (raiseSelectedLabelError (selected.map fun entry => (entry.1.1, entry.2.state))
    (entrySession.getD signalSession) (exitSession.getD signalSession) signalSession).mapError .label
  let included := includedArrays selected
  let metrics ← factorArrayValues b included.1 included.2
  factorObservation signalSession horizon entrySession exitSession selected.length
    (alphaBySession signalSession).coverageLoss
    (LabelState.exclusions (selected.map fun entry => entry.2.state)) included.1.length metrics

def factorDaysByHorizon (signalsByHorizon : List (Nat × List market.Position)) :
    Except (FactorError S I ε) (List (Nat × List (FactorObservation S V))) :=
  signalsByHorizon.mapM fun entry => do
    let days ← entry.2.mapM (factorDayColumnar b market alphaBySession entry.1)
    pure (entry.1, days)

end Rows

end ThesisTrace.Factor
