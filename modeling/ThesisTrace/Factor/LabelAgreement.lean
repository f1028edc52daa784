import ThesisTrace.Library.FirstError
import ThesisTrace.Factor.Labels

/-!
# The row and the columnar evaluation agree

Every coordinate has one outcome in both evaluations. They build the same samples and count the
same exclusions, and raise at the same signal sessions; a session with faults of several kinds
raises its first fault in the one, and its first fault of the first kind in the other.
-/

namespace ThesisTrace.Factor
open Transaction Strategy

variable {S I V ε : Type} [LinearOrder S] (b : Binary64 V ε) (market : MarketPanel S I V)

/-! ### One coordinate -/

/-- The fault of a state that raises. -/
def LabelState.fault : LabelState → Option LabelFault
  | .invalidZeroEntry => some .invalidEntry
  | .invalidEntry => some .unexplainedEntry
  | .invalidExit => some .unexplainedExit
  | .invalidNonFinite => some .nonFinite
  | .valid | .unavailable | .censored | .dataUnavailable => none

/-- The exclusion that a state counts as. -/
def LabelState.exclusion : LabelState → Option LabelExclusion
  | .unavailable => some .confirmedMarketOpenUnavailable
  | .censored => some .rightCensoredByResearchPeriodEnd
  | .dataUnavailable => some .dataUnavailable
  | _ => none

/-- What an entry of the columnar matrices says about its label. -/
def LabelCell.resolution (cell : LabelCell V) : Option (Resolution V) :=
  if cell.state = .valid then cell.label.map .labelled
  else cell.state.exclusion.map .excluded

/-- The error that names a fault of a signal session. -/
def faultError (horizon : Nat) (signal : market.Position) (instrument : I) (fault : LabelFault) :
    LabelError S I :=
  let signalSession := market.sessions.get signal
  ⟨fault, instrument, fault.session (market.sessions[signal.val + 1]?.getD signalSession)
    (market.sessions[signal.val + 1 + horizon]?.getD signalSession) signalSession⟩

/-- What an entry of the columnar matrices says, as the row evaluation says it. -/
inductive Agrees (error : LabelFault → LabelError S I) (cell : LabelCell V) :
    Except (LabelError S I) (Resolution V) → Prop
  | ok (resolution : Resolution V) (hfault : cell.state.fault = none)
      (hresolution : cell.resolution = some resolution) : Agrees error cell (.ok resolution)
  | error (fault : LabelFault) (raised : LabelError S I) (hfault : cell.state.fault = some fault)
      (hraised : raised = error fault) : Agrees error cell (.error raised)

lemma unavailableReason_false (state : Option TradingState) (listedTo : Option S) (session : S) :
    unavailableReason state listedTo session false =
      match unavailableReason state listedTo session true with
      | .terminalDelisting => .confirmedMarketOpenUnavailable
      | reason => reason := by
  simp only [unavailableReason]
  split <;> split_ifs <;> simp_all

lemma classifyCell_none (exitOpen : Option V) (entryReason exitReason : MissingReason) :
    classifyCell b none exitOpen entryReason exitReason =
      match entryReason with
      | .dataUnavailable => ⟨.dataUnavailable, none⟩
      | .unexplained => ⟨.invalidEntry, none⟩
      | .none | .terminalDelisting => ⟨.unavailable, none⟩ := by
  cases entryReason <;> rfl

lemma classifyCell_zero {entryOpen : V} (h : b.isZero entryOpen) (exitOpen : Option V)
    (entryReason exitReason : MissingReason) :
    classifyCell b (some entryOpen) exitOpen entryReason exitReason = ⟨.invalidZeroEntry, none⟩ := by
  simp [classifyCell, h]

lemma classifyCell_exit {entryOpen : V} (h : ¬b.isZero entryOpen) (exitOpen : V)
    (entryReason exitReason : MissingReason) :
    classifyCell b (some entryOpen) (some exitOpen) entryReason exitReason =
      match b.forwardReturn exitOpen entryOpen with
      | some label => ⟨.valid, some label⟩
      | none => ⟨.invalidNonFinite, none⟩ := by
  cases hreturn : b.forwardReturn exitOpen entryOpen <;> simp [classifyCell, h, hreturn]

lemma classifyCell_missing_exit {entryOpen : V} (h : ¬b.isZero entryOpen)
    (entryReason exitReason : MissingReason) :
    classifyCell b (some entryOpen) none entryReason exitReason =
      match exitReason with
      | .terminalDelisting => ⟨.valid, some b.totalLoss⟩
      | .dataUnavailable => ⟨.dataUnavailable, none⟩
      | .unexplained => ⟨.invalidExit, none⟩
      | .none => ⟨.unavailable, none⟩ := by
  cases exitReason <;> simp [classifyCell, h]

variable {market} in
lemma adjustedOpens_get {index : Nat} (h : index < market.sessions.length) (instrument : I) :
    adjustedOpens market instrument index =
      market.adjustedOpen (market.sessions.get ⟨index, h⟩) instrument := by
  simp [adjustedOpens, List.getElem?_eq_getElem h]

variable {market} in
lemma missingReason_get {index : Nat} (h : index < market.sessions.length) {instrument : I}
    (hopen : market.adjustedOpen (market.sessions.get ⟨index, h⟩) instrument = none) :
    missingReason market instrument index =
      match unavailableReason
          (market.tradingState (market.sessions.get ⟨index, h⟩) instrument)
          (market.listedTo instrument) (market.sessions.get ⟨index, h⟩) true with
      | .terminalDelisting => .terminalDelisting
      | .unexplainedMissingOrInvalidData => .unexplained
      | .dataUnavailable => .dataUnavailable
      | .confirmedMarketOpenUnavailable => .none := by
  rw [List.get_eq_getElem] at hopen ⊢
  simp only [missingReason, List.getElem?_eq_getElem h]
  rw [hopen]
  rfl

/-- Each coordinate has the same outcome in both evaluations. -/
theorem resolveLabel_agrees (horizon : Nat) (signal : market.Position) (instrument : I) :
    Agrees (faultError market horizon signal instrument)
      (prepareColumnarForwardLabels b market horizon instrument signal)
      (resolveLabel b market horizon signal instrument) := by
  unfold resolveLabel prepareColumnarForwardLabels
  by_cases hexit : signal + 1 + horizon < market.sessions.length
  · have hwidth : signal.val < market.sessions.length - horizon - 1 := by omega
    have hentry : signal.val + 1 < market.sessions.length := by omega
    rw [dif_pos hexit, if_pos hwidth, Nat.add_comm 1 signal.val,
      show 1 + horizon + signal.val = signal.val + 1 + horizon by omega,
      adjustedOpens_get hentry, adjustedOpens_get hexit]
    have herror (fault : LabelFault) : faultError market horizon signal instrument fault =
        ⟨fault, instrument, fault.session (market.sessions.get ⟨signal + 1, hentry⟩)
          (market.sessions.get ⟨signal + 1 + horizon, hexit⟩) (market.sessions.get signal)⟩ := by
      simp [faultError, List.getElem?_eq_getElem hentry, List.getElem?_eq_getElem hexit]
    dsimp only
    cases hentryOpen : market.adjustedOpen (market.sessions.get ⟨signal + 1, hentry⟩) instrument with
    | none =>
      rw [classifyCell_none, missingReason_get hentry hentryOpen, unavailableReason_false]
      cases unavailableReason (market.tradingState (market.sessions.get ⟨signal + 1, hentry⟩)
          instrument) (market.listedTo instrument)
          (market.sessions.get ⟨signal + 1, hentry⟩) true with
      | terminalDelisting => exact .ok _ rfl rfl
      | confirmedMarketOpenUnavailable => exact .ok _ rfl rfl
      | dataUnavailable => exact .ok _ rfl rfl
      | unexplainedMissingOrInvalidData =>
        exact .error .unexplainedEntry _ rfl (herror .unexplainedEntry).symm
    | some entryOpen =>
      dsimp only
      by_cases hzero : b.isZero entryOpen
      · rw [classifyCell_zero b hzero, if_pos hzero]
        exact .error .invalidEntry _ rfl (herror .invalidEntry).symm
      · rw [if_neg hzero]
        cases hexitOpen : market.adjustedOpen (market.sessions.get ⟨signal + 1 + horizon, hexit⟩)
            instrument with
        | none =>
          rw [classifyCell_missing_exit b hzero, missingReason_get hexit hexitOpen]
          cases unavailableReason
              (market.tradingState (market.sessions.get ⟨signal + 1 + horizon, hexit⟩) instrument)
              (market.listedTo instrument)
              (market.sessions.get ⟨signal + 1 + horizon, hexit⟩) true with
          | terminalDelisting => exact .ok _ rfl rfl
          | confirmedMarketOpenUnavailable => exact .ok _ rfl rfl
          | dataUnavailable => exact .ok _ rfl rfl
          | unexplainedMissingOrInvalidData =>
            exact .error .unexplainedExit _ rfl (herror .unexplainedExit).symm
        | some exitOpen =>
          rw [classifyCell_exit b hzero]
          dsimp only
          cases b.forwardReturn exitOpen entryOpen with
          | some label => exact .ok _ rfl rfl
          | none => exact .error .nonFinite _ rfl (herror .nonFinite).symm
  · have hwidth : ¬signal.val < market.sessions.length - horizon - 1 := by omega
    rw [dif_neg hexit, if_neg hwidth]
    exact .ok _ rfl rfl

/-! ### One signal session -/

lemma LabelCell.eq_of_labelled {cell : LabelCell V} {label : V}
    (h : cell.resolution = some (.labelled label)) : cell = ⟨.valid, some label⟩ := by
  obtain ⟨state, stored⟩ := cell
  by_cases hvalid : state = .valid
  · subst hvalid
    cases stored <;> simp_all [LabelCell.resolution]
  · simp [LabelCell.resolution, hvalid] at h

lemma LabelCell.exclusion_of_excluded {cell : LabelCell V} {reason : LabelExclusion}
    (h : cell.resolution = some (.excluded reason)) :
    cell.state ≠ .valid ∧ cell.state.exclusion = some reason := by
  by_cases hvalid : cell.state = .valid
  · simp [LabelCell.resolution, hvalid] at h
  · simp only [LabelCell.resolution, if_neg hvalid, Option.map_eq_some_iff] at h
    obtain ⟨_, hexclusion, heq⟩ := h
    cases heq
    exact ⟨hvalid, hexclusion⟩

lemma LabelState.exclusions_cons (state : LabelState) (states : List LabelState)
    (reason : LabelExclusion) : LabelState.exclusions (state :: states) reason =
      LabelState.exclusions states reason + if state.exclusion = some reason then 1 else 0 := by
  cases reason <;> cases state <;> simp [LabelState.exclusions, LabelState.exclusion]

lemma includedArrays_valid (alpha : I × V) (label : V) (rest : List ((I × V) × LabelCell V)) :
    includedArrays ((alpha, ⟨.valid, some label⟩) :: rest) =
      (alpha.2 :: (includedArrays rest).1, label :: (includedArrays rest).2) := rfl

lemma includedArrays_excluded {entry : (I × V) × LabelCell V} (h : entry.2.state ≠ .valid)
    (rest : List ((I × V) × LabelCell V)) :
    includedArrays (entry :: rest) = includedArrays rest := by
  simp [includedArrays, h]

omit [LinearOrder S] in
/-- What the inner loop collects from coordinates without a fault. -/
lemma collect_rows {resolve : I × V → Except (LabelError S I) (Resolution V)}
    {cell : I × V → LabelCell V} {values : List (I × V)}
    (h : ∀ alpha ∈ values, ∃ resolution, resolve alpha = .ok resolution ∧
      (cell alpha).resolution = some resolution) (rows : LabelRows I V) :
    ∃ samples resolutions,
      values.foldlM (fun rows alpha => LabelRows.add rows alpha <$> resolve alpha) rows =
        .ok ⟨rows.samples ++ samples, rows.resolutions ++ resolutions,
          fun reason => rows.unavailable reason +
            LabelState.exclusions (values.map fun alpha => (cell alpha).state) reason⟩ ∧
      (samples.map LabelSample.alpha, samples.map LabelSample.label) =
        includedArrays (values.map fun alpha => (alpha, cell alpha)) ∧
      samples.map LabelSample.instrument =
        (values.filter fun alpha => (cell alpha).state = .valid).map Prod.fst ∧
      (resolutions.map fun row => ((row.instrument, row.alpha), some row.resolution)) =
        values.map fun alpha => (alpha, (cell alpha).resolution) := by
  induction values generalizing rows with
  | nil =>
    refine ⟨[], [], ?_, rfl, rfl, rfl⟩
    have hzero : ∀ reason, LabelState.exclusions [] reason = 0 := by
      intro reason
      cases reason <;> rfl
    simp [hzero, pure, Except.pure]
  | cons alpha values ih =>
    obtain ⟨resolution, hresolve, hcell⟩ := h alpha List.mem_cons_self
    obtain ⟨samples, resolutions, hrest, hincluded, hinstruments, hresolutions⟩ :=
      ih (fun a ha => h a (List.mem_cons_of_mem _ ha)) (rows.add alpha resolution)
    rw [List.foldlM_cons, hresolve]
    change ∃ _ _, values.foldlM _ (rows.add alpha resolution) = _ ∧ _
    rw [hrest]
    cases resolution with
    | labelled label =>
      have hvalid := LabelCell.eq_of_labelled hcell
      refine ⟨⟨alpha.1, alpha.2, label⟩ :: samples, ⟨alpha.1, alpha.2, .labelled label⟩ :: resolutions,
        ?_, ?_, by simp [hvalid, hinstruments], ?_⟩
      · simp [LabelRows.add, LabelState.exclusions_cons, hvalid, LabelState.exclusion]
      · simp only [List.map_cons, hvalid, includedArrays_valid, ← hincluded]
      · rw [List.map_cons, List.map_cons, hresolutions, hcell]
    | excluded reason =>
      obtain ⟨hvalid, hexclusion⟩ := LabelCell.exclusion_of_excluded hcell
      refine ⟨samples, ⟨alpha.1, alpha.2, .excluded reason⟩ :: resolutions, ?_, ?_,
        by simp [hvalid, hinstruments], ?_⟩
      · have hcount : ∀ other, Function.update rows.unavailable reason
            (rows.unavailable reason + 1) other + LabelState.exclusions
              (values.map fun alpha => (cell alpha).state) other =
            rows.unavailable other + LabelState.exclusions
              ((alpha :: values).map fun alpha => (cell alpha).state) other := by
          intro other
          rw [List.map_cons, LabelState.exclusions_cons, hexclusion]
          by_cases heq : reason = other
          · subst heq
            simp only [Function.update_self, if_pos]
            omega
          · rw [Function.update_of_ne (Ne.symm heq), if_neg (by simpa using heq)]
            omega
        simp only [LabelRows.add, hcount, List.append_assoc, List.singleton_append]
      · rw [hincluded, List.map_cons]
        exact (includedArrays_excluded hvalid _).symm
      · rw [List.map_cons, List.map_cons, hresolutions, hcell]

section Days
variable [LinearOrder I] (alphaBySession : S → AlphaSession I V)

/-- The faulty labels of a signal session, in the order of its Alpha values. -/
def labelFaults (horizon : Nat) (signal : market.Position) : List (LabelError S I) :=
  errors (fun alpha : I × V => resolveLabel b market horizon signal alpha.1)
    (alphaBySession (market.sessions.get signal)).values

/-- The first fault of the first kind, in the order of `_raise_selected_label_error`. -/
def firstOfKind (faults : List (LabelError S I)) : Option (LabelError S I) :=
  invalidStates.findSome? fun entry => faults.find? fun error => error.fault = entry.2

/-- The row and the columnar evaluation of a signal session see the same labels. -/
structure SameLabels (item : SessionLabels S I V) (selected : List ((I × V) × LabelCell V)) :
    Prop where
  resolutions : (item.resolutions.map fun row => ((row.instrument, row.alpha), some row.resolution)) =
    selected.map fun entry => (entry.1, entry.2.resolution)
  instruments : item.samples.map LabelSample.instrument =
    (selected.filter fun entry => entry.2.state = .valid).map fun entry => entry.1.1
  samples : (item.samples.map LabelSample.alpha, item.samples.map LabelSample.label) =
    includedArrays selected
  unavailable : item.unavailable = LabelState.exclusions (selected.map fun entry => entry.2.state)

lemma agrees_of_no_fault {horizon : Nat} {signal : market.Position}
    (h : labelFaults b market alphaBySession horizon signal = []) :
    ∀ alpha ∈ (alphaBySession (market.sessions.get signal)).values, ∃ resolution,
      resolveLabel b market horizon signal alpha.1 = .ok resolution ∧
      (prepareColumnarForwardLabels b market horizon alpha.1 signal).resolution =
        some resolution := by
  intro alpha halpha
  obtain ⟨resolution, hok⟩ := errors_eq_nil.mp h alpha halpha
  have hagrees := resolveLabel_agrees b market horizon signal alpha.1
  rw [hok] at hagrees
  cases hagrees with
  | ok _ _ hresolution => exact ⟨resolution, hok, hresolution⟩

lemma mergeSort_rows {ρ : Type} {instrument : ρ → I} {rows : List ρ}
    (h : (rows.map instrument).Pairwise (· < ·)) :
    (rows.mergeSort fun x y => instrument x ≤ instrument y) = rows := by
  apply List.mergeSort_of_pairwise
  rw [List.pairwise_map] at h
  exact h.imp fun hlt => by simpa using hlt.le

/-- The labels of a signal session without a fault. -/
theorem sessionLabels_ok {horizon : Nat} {signal : market.Position}
    (h : labelFaults b market alphaBySession horizon signal = []) :
    ∃ item, sessionLabels b market alphaBySession horizon signal = .ok item ∧
      SameLabels item (selectedCells b market alphaBySession horizon signal) ∧
      item.session = market.sessions.get signal ∧
      item.alphaValues = (alphaBySession (market.sessions.get signal)).values ∧
      item.alphaCoverageLoss = (alphaBySession (market.sessions.get signal)).coverageLoss ∧
      item.entrySession = market.sessions[signal.val + 1]? ∧
      item.exitSession = market.sessions[signal.val + 1 + horizon]? := by
  obtain ⟨samples, resolutions, hrows, hincluded, hinstruments, hresolutions⟩ :=
    collect_rows (agrees_of_no_fault b market alphaBySession h) LabelRows.empty
  have hsorted := (alphaBySession (market.sessions.get signal)).sorted
  rw [← List.pairwise_map (f := Prod.fst) (R := (· < ·))] at hsorted
  have hsamples : (samples.mergeSort fun x y => x.instrument ≤ y.instrument) = samples :=
    mergeSort_rows (hinstruments ▸ hsorted.sublist (List.filter_sublist.map _))
  have hrowInstruments : resolutions.map LabelResolution.instrument =
      (alphaBySession (market.sessions.get signal)).values.map Prod.fst := by
    have hmap := congrArg (List.map fun entry => entry.1.1) hresolutions
    simpa [Function.comp_def] using hmap
  have hsortedRows : (resolutions.mergeSort fun x y => x.instrument ≤ y.instrument) =
      resolutions := mergeSort_rows (hrowInstruments ▸ hsorted)
  refine ⟨_, by rw [sessionLabels, hrows]; rfl, ⟨?_, ?_, ?_, ?_⟩, rfl, rfl, rfl, rfl, rfl⟩
  · simp only [LabelRows.empty, List.nil_append, hsortedRows, hresolutions, selectedCells,
      List.map_map, Function.comp_def]
  · simp only [LabelRows.empty, List.nil_append, hsamples, hinstruments, selectedCells,
      List.filter_map, List.map_map, Function.comp_def]
  · simp only [LabelRows.empty, List.nil_append, hsamples, hincluded, selectedCells]
  · simp only [LabelRows.empty, Nat.zero_add, selectedCells, List.map_map, Function.comp_def]

/-- The row labels of a signal session raise the first of its faults. -/
lemma sessionLabels_error? (horizon : Nat) (signal : market.Position) :
    error? (sessionLabels b market alphaBySession horizon signal) =
      (labelFaults b market alphaBySession horizon signal).head? := by
  rw [labelFaults, ← foldlM_error? LabelRows.add LabelRows.empty]
  exact error?_bind_pure _ _

lemma labelFaults_eq (horizon : Nat) (signal : market.Position) :
    labelFaults b market alphaBySession horizon signal =
      (selectedCells b market alphaBySession horizon signal).filterMap fun entry =>
        entry.2.state.fault.map (faultError market horizon signal entry.1.1) := by
  unfold labelFaults errors selectedCells
  rw [List.filterMap_map]
  congr 1
  funext alpha
  have hagrees := resolveLabel_agrees b market horizon signal alpha.1
  rw [Function.comp_apply]
  dsimp only
  generalize resolveLabel b market horizon signal alpha.1 = resolved at hagrees
  cases hagrees with
  | ok _ hfault _ => rw [hfault]; rfl
  | error _ _ hfault hraised => rw [hfault, hraised]; rfl

omit [LinearOrder S] [LinearOrder I] in
/-- The instruments of one code are those of the faults of its kind. -/
lemma find?_state {selected : List ((I × V) × LabelCell V)} {state : LabelState}
    {fault : LabelFault} (hfault : ∀ s : LabelState, s = state ↔ s.fault = some fault)
    {error : I → LabelFault → LabelError S I}
    (herror : ∀ x k, (error x k).instrument = x ∧ (error x k).fault = k) :
    ((selected.map fun entry => (entry.1.1, entry.2.state)).find? fun value =>
        value.2 = state).map (fun value => error value.1 fault) =
      (selected.filterMap fun entry => entry.2.state.fault.map (error entry.1.1)).find?
        fun raised => raised.fault = fault := by
  induction selected with
  | nil => rfl
  | cons entry selected ih =>
    by_cases hstate : entry.2.state = state
    · have hsome := (hfault _).mp hstate
      simp [hstate, (hfault _).mp rfl, (herror _ _).2]
    · have hother : entry.2.state.fault ≠ some fault := fun heq => hstate ((hfault _).mpr heq)
      rw [List.map_cons, List.find?_cons_of_neg (by simpa using hstate), ih]
      cases hkind : entry.2.state.fault with
      | none => simp [hkind]
      | some other =>
        have hne : other ≠ fault := fun heq => hother (heq ▸ hkind)
        simp [hkind, (herror _ _).2, hne]

/-- The columnar evaluation of a signal session raises the first fault of the first kind. -/
lemma raiseSelectedLabelError_eq (horizon : Nat) (signal : market.Position) :
    raiseSelectedLabelError
      ((selectedCells b market alphaBySession horizon signal).map fun entry =>
        (entry.1.1, entry.2.state))
      (market.sessions[signal.val + 1]?.getD (market.sessions.get signal))
      (market.sessions[signal.val + 1 + horizon]?.getD (market.sessions.get signal))
      (market.sessions.get signal) =
    raiseFound (firstOfKind (labelFaults b market alphaBySession horizon signal)) := by
  have hfind : ∀ entry ∈ invalidStates,
      (((selectedCells b market alphaBySession horizon signal).map fun entry =>
        (entry.1.1, entry.2.state)).find? fun value => value.2 = entry.1).map
          (fun value => faultError market horizon signal value.1 entry.2) =
      (labelFaults b market alphaBySession horizon signal).find?
        fun raised => raised.fault = entry.2 := by
    intro entry hentry
    rw [labelFaults_eq]
    refine find?_state ?_ fun x k => ⟨rfl, rfl⟩
    intro s
    simp only [invalidStates, List.mem_cons, List.not_mem_nil, or_false] at hentry
    rcases hentry with rfl | rfl | rfl | rfl <;> cases s <;> simp [LabelState.fault]
  rw [firstOfKind, ← findSome?_congr hfind, ← forM_raiseFound]
  unfold raiseSelectedLabelError
  congr 1
  funext entry
  cases List.find? _ _ <;> rfl

/-! ### Faults of one session -/

omit [LinearOrder S] [LinearOrder I] in
/-- Every kind of fault is looked for. -/
lemma firstOfKind_eq_none {faults : List (LabelError S I)} :
    firstOfKind faults = none ↔ faults = [] := by
  constructor
  · intro h
    refine List.eq_nil_iff_forall_not_mem.mpr fun error herror => ?_
    simp only [firstOfKind, List.findSome?_eq_none_iff, List.find?_eq_none] at h
    have hkind : ∃ entry ∈ invalidStates, error.fault = entry.2 := by
      cases error.fault <;> simp [invalidStates]
    obtain ⟨entry, hentry, hfault⟩ := hkind
    exact h entry hentry error herror (by simpa using hfault)
  · rintro rfl
    rfl

omit [LinearOrder S] [LinearOrder I] in
/-- Faults of one kind are raised in the order of the Alpha values. -/
lemma firstOfKind_uniform {faults : List (LabelError S I)} {kind : LabelFault}
    (h : ∀ error ∈ faults, error.fault = kind) : firstOfKind faults = faults.head? := by
  cases faults with
  | nil => rfl
  | cons first rest =>
    have hfirst : first.fault = kind := h first List.mem_cons_self
    have hfind : ∀ other, (first :: rest).find? (fun error => error.fault = other) =
        if other = kind then some first else none := by
      intro other
      by_cases heq : other = kind
      · simp [heq, hfirst]
      · rw [if_neg heq, List.find?_eq_none]
        intro error herror
        simpa [h error herror] using Ne.symm heq
    simp only [firstOfKind, invalidStates, List.findSome?_cons, hfind, List.head?_cons]
    cases kind <;> simp

omit [LinearOrder S] [LinearOrder I] in
lemma factorValues_eq (alpha label : List V) :
    (factorValues b alpha label : Except (FactorError S I ε) _) =
      factorArrayValues b alpha label := by
  unfold factorValues factorArrayValues require
  split <;> rfl

/-- Without a fault, the row and the columnar evaluation make the same observation. -/
theorem observation_eq {horizon : Nat} {signal : market.Position} {item : SessionLabels S I V}
    (h : labelFaults b market alphaBySession horizon signal = [])
    (hitem : sessionLabels b market alphaBySession horizon signal = .ok item) :
    (factorObservationFromLabels b horizon item : Except (FactorError S I ε) _) =
      factorDayColumnar b market alphaBySession horizon signal := by
  obtain ⟨item', hitem', hsame, hsession, hvalues, hloss, hentry, hexit⟩ :=
    sessionLabels_ok b market alphaBySession h
  obtain rfl : item = item' := Except.ok.inj (hitem.symm.trans hitem')
  have hraise := raiseSelectedLabelError_eq b market alphaBySession horizon signal
  rw [firstOfKind_eq_none.mpr h] at hraise
  have halphas := congrArg Prod.fst hsame.samples
  have hlabels := congrArg Prod.snd hsame.samples
  have hcount : item.samples.length =
      (includedArrays (selectedCells b market alphaBySession horizon signal)).1.length := by
    rw [← halphas, List.length_map]
  unfold factorObservationFromLabels factorDayColumnar factorDay
  dsimp only at halphas hlabels ⊢
  rw [hraise, factorValues_eq, halphas, hlabels, hsession, hvalues, hloss, hentry, hexit, hcount,
    hsame.unavailable]
  simp only [selectedCells, List.length_map]
  rfl

/-- A faulty label fails the columnar evaluation of its session. -/
theorem factorDayColumnar_error {horizon : Nat} {signal : market.Position}
    {raised : LabelError S I}
    (h : firstOfKind (labelFaults b market alphaBySession horizon signal) = some raised) :
    (factorDayColumnar b market alphaBySession horizon signal : Except (FactorError S I ε) _) =
      .error (.label raised) := by
  have hraise := raiseSelectedLabelError_eq b market alphaBySession horizon signal
  unfold factorDayColumnar
  dsimp only
  rw [hraise, h]
  rfl

omit [LinearOrder S] [LinearOrder I] in
/-- An Alpha value without a fault is a sample or is counted as an exclusion. -/
lemma samples_add_exclusions {selected : List ((I × V) × LabelCell V)}
    (h : ∀ entry ∈ selected, entry.2.state.fault = none) :
    (includedArrays selected).1.length + (LabelExclusion.all.map
      (LabelState.exclusions (selected.map fun entry => entry.2.state))).sum = selected.length := by
  induction selected with
  | nil => rfl
  | cons entry selected ih =>
    have hrest := ih fun other hother => h other (List.mem_cons_of_mem _ hother)
    have hentry := h entry List.mem_cons_self
    simp only [LabelExclusion.all, List.map_cons, List.map_nil, List.sum_cons, List.sum_nil,
      LabelState.exclusions_cons, includedArrays, List.length_map, List.length_cons] at hrest ⊢
    cases hstate : entry.2.state with
    | valid => simp [hstate, LabelState.exclusion]; omega
    | unavailable => simp [hstate, LabelState.exclusion]; omega
    | censored => simp [hstate, LabelState.exclusion]; omega
    | dataUnavailable => simp [hstate, LabelState.exclusion]; omega
    | _ => rw [hstate] at hentry; cases hentry

/-- Without a fault, only the arithmetic of the metrics can fail an observation. -/
theorem factorDayColumnar_ok {horizon : Nat} {signal : market.Position} {metrics : FactorValues V}
    (h : labelFaults b market alphaBySession horizon signal = [])
    (hmetrics : factorArrayValues b
      (includedArrays (selectedCells b market alphaBySession horizon signal)).1
      (includedArrays (selectedCells b market alphaBySession horizon signal)).2 =
        (.ok metrics : Except (FactorError S I ε) _)) :
    ∃ observation, (factorDayColumnar b market alphaBySession horizon signal :
      Except (FactorError S I ε) _) = .ok observation := by
  have hraise := raiseSelectedLabelError_eq b market alphaBySession horizon signal
  rw [firstOfKind_eq_none.mpr h] at hraise
  have hfault : ∀ entry ∈ selectedCells b market alphaBySession horizon signal,
      entry.2.state.fault = none := by
    rw [labelFaults_eq, List.filterMap_eq_nil_iff] at h
    exact fun entry hentry => Option.map_eq_none_iff.mp (h entry hentry)
  unfold factorDayColumnar factorObservation
  dsimp only
  rw [hraise, hmetrics, require, if_pos (samples_add_exclusions hfault)]
  exact ⟨_, rfl⟩

end Days

/-! ### Whole evaluations -/

section Evaluations
variable [LinearOrder I] (alphaBySession : S → AlphaSession I V) (signals : List market.Position)
  (horizons : List Nat)

lemma rowEvaluation_of_no_fault
    (h : ∀ entry ∈ pairs horizons signals,
      labelFaults b market alphaBySession entry.1 entry.2 = []) :
    (rowEvaluation b market alphaBySession signals horizons : Except (FactorError S I ε) _) =
      factorDaysByHorizon b market alphaBySession (horizons.map fun horizon => (horizon, signals)) := by
  have hlabels : ∀ horizon ∈ horizons, ∃ labels,
      (do
        let sessions ← signals.mapM fun signal =>
          (sessionLabels b market alphaBySession horizon signal).mapError FactorError.label
        pure (horizon, sessions) : Except (FactorError S I ε) _) = .ok labels ∧
      (do
        let daily ← labels.2.mapM (factorObservationFromLabels b labels.1)
        pure (labels.1, daily)) = (do
        let days ← signals.mapM (factorDayColumnar b market alphaBySession horizon)
        pure (horizon, days)) := by
    intro horizon hhorizon
    have hsession : ∀ signal ∈ signals, ∃ item,
        (sessionLabels b market alphaBySession horizon signal).mapError FactorError.label =
          (.ok item : Except (FactorError S I ε) _) ∧
        factorObservationFromLabels b horizon item =
          factorDayColumnar b market alphaBySession horizon signal := by
      intro signal hsignal
      have hfaults := h (horizon, signal) (mem_pairs.mpr ⟨hhorizon, hsignal⟩)
      obtain ⟨item, hitem, _⟩ := sessionLabels_ok b market alphaBySession hfaults
      exact ⟨item, by rw [hitem]; rfl, observation_eq b market alphaBySession hfaults hitem⟩
    obtain ⟨sessions, hsessions, hdaily⟩ := mapM_compose hsession
    exact ⟨(horizon, sessions), by rw [hsessions]; rfl, by rw [hdaily]⟩
  obtain ⟨labels, hbuild, hevaluate⟩ := mapM_compose hlabels
  unfold rowEvaluation buildForwardLabels evaluateFactor factorDaysByHorizon
  rw [hbuild, ok_bind, hevaluate, List.mapM_map]
  rfl

lemma rowEvaluation_of_fault {before after : List (Nat × market.Position)} {horizon : Nat}
    {signal : market.Position} {first : LabelError S I}
    (hpairs : pairs horizons signals = before ++ (horizon, signal) :: after)
    (hbefore : ∀ entry ∈ before, labelFaults b market alphaBySession entry.1 entry.2 = [])
    (hfirst : (labelFaults b market alphaBySession horizon signal).head? = some first) :
    (rowEvaluation b market alphaBySession signals horizons : Except (FactorError S I ε) _) =
      .error (.label first) := by
  have hok : errors (fun entry : Nat × market.Position =>
      (sessionLabels b market alphaBySession entry.1 entry.2).mapError
        (FactorError.label (ε := ε))) before = [] := by
    refine errors_eq_nil.mpr fun entry hentry => ?_
    obtain ⟨item, hitem, _⟩ := sessionLabels_ok b market alphaBySession (hbefore entry hentry)
    exact ⟨item, by rw [hitem]; rfl⟩
  have herror : sessionLabels b market alphaBySession horizon signal = .error first :=
    eq_error (by rw [sessionLabels_error?, hfirst])
  have hbuild : buildForwardLabels b market alphaBySession signals horizons =
      (.error (.label first) : Except (FactorError S I ε) _) := by
    apply eq_error
    unfold buildForwardLabels
    rw [nested_error? (g := fun horizon signal =>
      (sessionLabels b market alphaBySession horizon signal).mapError FactorError.label),
      hpairs, errors_append, hok, errors_cons_error (by rw [herror]; rfl)]
    rfl
  rw [rowEvaluation, hbuild]
  rfl

lemma columnarEvaluation_of_fault {before after : List (Nat × market.Position)} {horizon : Nat}
    {signal : market.Position} {raised : LabelError S I}
    (hpairs : pairs horizons signals = before ++ (horizon, signal) :: after)
    (hraised : firstOfKind (labelFaults b market alphaBySession horizon signal) = some raised) :
    (factorDaysByHorizon b market alphaBySession
      (horizons.map fun horizon => (horizon, signals)) : Except (FactorError S I ε) _) =
      (before.mapM fun entry => factorDayColumnar b market alphaBySession entry.1 entry.2) >>=
        fun _ => .error (.label raised) := by
  have hday := factorDayColumnar_error (ε := ε) b market alphaBySession hraised
  have herror := nested_error?
    (g := factorDayColumnar (ε := ε) b market alphaBySession) horizons signals
  rw [hpairs, errors_append, errors_cons_error (a := (horizon, signal)) hday] at herror
  have hbefore : error? (before.mapM
        fun entry => factorDayColumnar (ε := ε) b market alphaBySession entry.1 entry.2) = _ :=
    mapM_error?
  unfold factorDaysByHorizon
  rw [List.mapM_map]
  cases hmap : before.mapM
      fun entry => factorDayColumnar (ε := ε) b market alphaBySession entry.1 entry.2 with
  | error e =>
    rw [hmap, error?_error] at hbefore
    rw [List.head?_append, ← hbefore] at herror
    exact eq_error herror
  | ok days =>
    rw [hmap, error?_ok, eq_comm, List.head?_eq_none_iff] at hbefore
    rw [hbefore] at herror
    exact eq_error herror

/-- The columnar evaluation makes the observations of the row evaluation, and both raise on the
same inputs. Where a signal session has faulty labels, the row evaluation raises the first of
them; the columnar evaluation raises the first of the first kind that it looks for, unless the
arithmetic of an earlier session raised before it. -/
theorem factor_evaluations_agree :
    (∀ horizon signal, labelFaults b market alphaBySession horizon signal = [] → ∃ item,
      sessionLabels b market alphaBySession horizon signal = .ok item ∧
      SameLabels item (selectedCells b market alphaBySession horizon signal) ∧
      (factorObservationFromLabels b horizon item : Except (FactorError S I ε) _) =
        factorDayColumnar b market alphaBySession horizon signal) ∧
    (∀ horizon signal, labelFaults b market alphaBySession horizon signal ≠ [] →
      ∃ first raised,
        (labelFaults b market alphaBySession horizon signal).head? = some first ∧
        firstOfKind (labelFaults b market alphaBySession horizon signal) = some raised ∧
        sessionLabels b market alphaBySession horizon signal = .error first ∧
        (factorDayColumnar b market alphaBySession horizon signal :
          Except (FactorError S I ε) _) = .error (.label raised) ∧
        ((∃ kind, ∀ error ∈ labelFaults b market alphaBySession horizon signal,
          error.fault = kind) → raised = first)) ∧
    (∀ days, (rowEvaluation b market alphaBySession signals horizons :
        Except (FactorError S I ε) _) = .ok days ↔
      factorDaysByHorizon b market alphaBySession
        (horizons.map fun horizon => (horizon, signals)) = .ok days) ∧
    ((∀ entry ∈ pairs horizons signals,
        labelFaults b market alphaBySession entry.1 entry.2 = []) →
      (rowEvaluation b market alphaBySession signals horizons :
        Except (FactorError S I ε) _) =
      factorDaysByHorizon b market alphaBySession
        (horizons.map fun horizon => (horizon, signals))) ∧
    (∀ before horizon signal after first raised,
      pairs horizons signals = before ++ (horizon, signal) :: after →
      (∀ entry ∈ before, labelFaults b market alphaBySession entry.1 entry.2 = []) →
      (labelFaults b market alphaBySession horizon signal).head? = some first →
      firstOfKind (labelFaults b market alphaBySession horizon signal) = some raised →
      (rowEvaluation b market alphaBySession signals horizons :
        Except (FactorError S I ε) _) = .error (.label first) ∧
      (factorDaysByHorizon b market alphaBySession
        (horizons.map fun horizon => (horizon, signals)) : Except (FactorError S I ε) _) =
        (before.mapM fun entry => factorDayColumnar b market alphaBySession entry.1 entry.2) >>=
          fun _ => .error (.label raised)) := by
  refine ⟨?_, ?_, ?_, rowEvaluation_of_no_fault b market alphaBySession signals horizons, ?_⟩
  · intro horizon signal h
    obtain ⟨item, hitem, hsame, _⟩ := sessionLabels_ok b market alphaBySession h
    exact ⟨item, hitem, hsame, observation_eq b market alphaBySession h hitem⟩
  · intro horizon signal h
    obtain ⟨first, hfirst⟩ := Option.ne_none_iff_exists'.mp (mt List.head?_eq_none_iff.mp h)
    obtain ⟨raised, hraised⟩ := Option.ne_none_iff_exists'.mp (mt firstOfKind_eq_none.mp h)
    refine ⟨first, raised, hfirst, hraised, eq_error (by rw [sessionLabels_error?, hfirst]),
      factorDayColumnar_error b market alphaBySession hraised, ?_⟩
    rintro ⟨kind, hkind⟩
    rw [firstOfKind_uniform hkind, hfirst] at hraised
    exact (Option.some.inj hraised).symm
  · intro days
    by_cases h : ∀ entry ∈ pairs horizons signals,
        labelFaults b market alphaBySession entry.1 entry.2 = []
    · rw [rowEvaluation_of_no_fault b market alphaBySession signals horizons h]
    · obtain ⟨before, ⟨horizon, signal⟩, after, hpairs, hbefore, hfault⟩ := exists_first h
      obtain ⟨first, hfirst⟩ := Option.ne_none_iff_exists'.mp (mt List.head?_eq_none_iff.mp hfault)
      obtain ⟨raised, hraised⟩ :=
        Option.ne_none_iff_exists'.mp (mt firstOfKind_eq_none.mp hfault)
      rw [rowEvaluation_of_fault b market alphaBySession signals horizons hpairs hbefore hfirst,
        columnarEvaluation_of_fault b market alphaBySession signals horizons hpairs hraised]
      simp
  · intro before horizon signal after first raised hpairs hbefore hfirst hraised
    exact ⟨rowEvaluation_of_fault b market alphaBySession signals horizons hpairs hbefore hfirst,
      columnarEvaluation_of_fault b market alphaBySession signals horizons hpairs hraised⟩

end Evaluations

/-! ### Two faults in one session -/

/-- Instrument 0 has no entry price and nothing explains it; the entry price of instrument 1 is
zero. -/
def faultyMarket : MarketPanel Nat Nat ℤ where
  sessions := [0, 1, 2]
  sessions_sorted := by decide
  adjustedOpen session instrument :=
    if session = 1 then if instrument = 0 then none else some 0 else some 10
  tradingState _ _ := some .normal
  listedTo _ := none

def twoAlphas (_ : Nat) : AlphaSession Nat ℤ where
  values := [(0, 1), (1, 2)]
  coverageLoss _ := 0
  sorted := by decide

/-- The row evaluation raises for instrument 0, the columnar evaluation for instrument 1. -/
theorem evaluations_raise_different_errors :
    ¬∀ (market : MarketPanel Nat Nat ℤ) (alphaBySession : Nat → AlphaSession Nat ℤ)
      (signals : List market.Position) (horizons : List Nat),
      rowEvaluation wholeNumbers market alphaBySession signals horizons =
        factorDaysByHorizon wholeNumbers market alphaBySession
          (horizons.map fun horizon => (horizon, signals)) := by
  intro h
  have hrow : rowEvaluation wholeNumbers faultyMarket twoAlphas [⟨0, by decide⟩] [1] =
      .error (.label ⟨.unexplainedEntry, 0, 1⟩) := rfl
  have hcolumnar : factorDaysByHorizon wholeNumbers faultyMarket twoAlphas
      [(1, [⟨0, by decide⟩])] = .error (.label ⟨.invalidEntry, 1, 1⟩) := rfl
  have heq := hrow.symm.trans ((h faultyMarket twoAlphas [⟨0, by decide⟩] [1]).trans hcolumnar)
  simp at heq

end ThesisTrace.Factor
