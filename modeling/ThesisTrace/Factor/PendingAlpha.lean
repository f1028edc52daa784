import ThesisTrace.Factor.AlphaMatrix
import ThesisTrace.Factor.ChunkResolution

/-!
# Pending Alphas are stored in a compact form

Between the chunks of a Run a row of the Alpha matrix is kept without its instruments, as one cell
for each member of the Universe of its session. Every chunk expands what is pending to its rows
again. A factor evaluation keeps with a row the horizons whose labels are open.
-/

namespace ThesisTrace.Factor.AlphaMatrix
open Transaction

variable {S I K V O ε : Type}

inductive ResearchKind
  | factorEvaluation
  | strategyBacktest
  deriving DecidableEq, Repr

/-- A row of the Alpha matrix between two chunks. The JSON of a continuation keeps its values. -/
structure PendingRow (S V O : Type) where
  session : S
  values : List (Option V)
  coverageLoss : List (AlphaExclusion × Nat)
  commonInputs : Option (List O)
  remainingHorizons : Option (List Nat)
  deriving DecidableEq, Repr

inductive ExecutionError (S I ε : Type)
  /-- Alpha-and-Factor Chunk requires Research Sessions -/
  | noSessions
  /-- Research Chunk Alpha output is incomplete -/
  | incomplete
  | arithmetic (error : ε)
  /-- Whatever the evaluation of the labels raises. -/
  | labels (error : ε)
  | chunk (error : ChunkError S I ε)
  deriving DecidableEq, Repr

/-! ### The compact form -/

section Compaction
variable [LinearOrder I]

/-- `remaining_horizons` of a row that becomes pending. -/
def ResearchKind.newHorizons (kind : ResearchKind) (H : HorizonSet) : Option (List Nat) :=
  match kind with
  | .factorEvaluation => some H.horizons
  | .strategyBacktest => none

/-- `_compact_pending_alpha` -/
def compactPendingAlpha (kind : ResearchKind) (H : HorizonSet) (members : List I)
    (row : Row S I V O) : Except (ChunkError S I ε) (PendingRow S V O) := do
  let values ←
    if row.values.length = members.length then do
      require (row.values.map Prod.fst = members) .alphaMatrix
      pure (row.values.map fun item => some item.2)
    else compactValues members row.values
  pure
    { session := row.session
      values := values
      coverageLoss := row.coverageLoss
      commonInputs := row.commonInputs
      remainingHorizons := kind.newHorizons H }

/-- `_expand_pending_alpha` -/
def expandPendingAlpha (members : List I) (item : PendingRow S V O) :
    Except (ChunkError S I ε) (Row S I V O) := do
  require (item.values.length = members.length) .pendingAlpha
  pure
    { session := item.session
      values := expandValues members item.values
      coverageLoss := item.coverageLoss
      commonInputs := item.commonInputs }

end Compaction

/-! ### The pending Alphas of a factor evaluation -/

section FactorEvaluation
variable [LinearOrder I]

/-- `coverage_loss` as the counts that the factor evaluation reads. -/
def lossCounts (coverageLoss : List (AlphaExclusion × Nat)) (reason : AlphaExclusion) : Nat :=
  (coverageLoss.lookup reason).getD 0

/-- What the labels of a pending row are resolved with. -/
def PendingRow.toPendingAlpha (item : PendingRow S V O) : PendingAlpha S V :=
  ⟨item.session, item.values, lossCounts item.coverageLoss, item.remainingHorizons.getD []⟩

/-- The rows of a factor evaluation are compacted as its labels need them. -/
lemma compactPendingAlpha_toPendingAlpha [LinearOrder S] (H : HorizonSet) (members : List I)
    (row : Row S I V O) (hsorted : row.values.Pairwise fun a b => a.1 < b.1) :
    (Factor.compactPendingAlpha H members row.session
      ⟨row.values, lossCounts row.coverageLoss, hsorted⟩ : Except (ChunkError S I ε) _) =
      (compactPendingAlpha .factorEvaluation H members row).map PendingRow.toPendingAlpha := by
  unfold Factor.compactPendingAlpha compactPendingAlpha
  by_cases hlength : row.values.length = members.length
  · by_cases hfull : row.values.map Prod.fst = members
    · simp only [if_pos hlength, require, if_pos hfull, ok_bind]
      rfl
    · simp only [if_pos hlength, require, if_neg hfull]
      rfl
  · simp only [if_neg hlength]
    cases compactValues members row.values <;> rfl

/-- A pending row is expanded as its labels need it. -/
lemma expandPendingAlpha_toPendingAlpha [LinearOrder S] (alpha : EvaluatedAlpha S I V)
    (item : PendingRow S V O) :
    (Factor.expandPendingAlpha alpha item.toPendingAlpha : Except (ChunkError S I ε) _).map
      (fun row => (row.1, row.2.values, row.2.coverageLoss)) =
      (expandPendingAlpha (alpha.universeMembers item.session) item).map fun row =>
        (row.session, row.values, lossCounts row.coverageLoss) := by
  unfold Factor.expandPendingAlpha expandPendingAlpha
  by_cases hlength : item.values.length = (alpha.universeMembers item.session).length
  · have hlength' : item.toPendingAlpha.values.length =
      (alpha.universeMembers item.toPendingAlpha.session).length := hlength
    simp only [require, if_pos hlength, if_pos hlength', ok_bind]
    rfl
  · have hlength' : ¬item.toPendingAlpha.values.length =
      (alpha.universeMembers item.toPendingAlpha.session).length := hlength
    simp only [require, if_neg hlength, if_neg hlength']
    rfl

end FactorEvaluation

/-! ### Chunks -/

section Chunks

/-- What the chunks of a Run share. -/
structure AlphaRun (S I K V ε : Type) where
  kind : ResearchKind
  horizons : HorizonSet
  neutralization : Neutralization
  arithmetic : RowArithmetic V ε
  data : UniverseData S I K

/-- A chunk with its slice of the sessions. Of the evaluation of its labels only a failure matters
here. -/
structure AlphaChunk (S I V O ε : Type) where
  calendar : List S
  evaluation : Evaluation S I V O
  researchSessions : List S
  final : Bool
  evaluateLabels : List (Row S I V O) → List (Nat × List S) → Except ε Unit

variable [DecidableEq S]

/-- The labels of an item whose horizon is reached in the chunk. -/
def isResolvable (chunk : AlphaChunk S I V O ε) (lastNewIndex horizon : Nat)
    (item : PendingRow S V O) : Bool :=
  item.remainingHorizons.any (fun remaining => horizon ∈ remaining) &&
    (chunk.final || chunk.calendar.idxOf item.session + 1 + horizon ≤ lastNewIndex)

/-- The signal sessions of one horizon that are resolved, and what is pending without it. -/
def resolvePending (chunk : AlphaChunk S I V O ε) (lastNewIndex : Nat)
    (state : List (Nat × List S) × List (PendingRow S V O)) (horizon : Nat) :
    List (Nat × List S) × List (PendingRow S V O) :=
  (state.1 ++ [(horizon,
      (state.2.filter (isResolvable chunk lastNewIndex horizon)).map PendingRow.session)],
    state.2.map fun item =>
      if isResolvable chunk lastNewIndex horizon item then
        { item with remainingHorizons := item.remainingHorizons.map (·.erase horizon) }
      else item)

variable [LinearOrder I] (run : AlphaRun S I K V ε)

/-- The form in which a chunk with the given slice keeps a row. -/
def AlphaRun.compact (calendar : List S) (row : Row S I V O) :
    Except (ChunkError S I ε) (PendingRow S V O) :=
  compactPendingAlpha run.kind run.horizons (run.data.sortedMembers calendar row.session) row

/-- The row that a chunk with the given slice makes of an item. -/
def AlphaRun.expand (calendar : List S) (item : PendingRow S V O) :
    Except (ChunkError S I ε) (Row S I V O) :=
  expandPendingAlpha (run.data.sortedMembers calendar item.session) item

variable [DecidableEq K]

/-- The rows of the Research Sessions of a chunk. -/
def AlphaRun.newAlpha (chunk : AlphaChunk S I V O ε) :
    Except (ExecutionError S I ε) (List (Row S I V O)) := do
  let evaluated ← (evaluateSessions run.arithmetic run.data chunk.calendar chunk.evaluation
    run.neutralization).mapError .arithmetic
  let newAlpha := evaluated.filter fun row => row.session ∈ chunk.researchSessions
  require (newAlpha.map Row.session = chunk.researchSessions) .incomplete
  pure newAlpha

/-- `execute_alpha_factor_chunk`: the pending rows after a chunk, and its Alpha matrix. -/
def AlphaRun.executeChunk (chunk : AlphaChunk S I V O ε) (pending : List (PendingRow S V O)) :
    Except (ExecutionError S I ε) (List (PendingRow S V O) × List (Row S I V O)) := do
  require (chunk.researchSessions ≠ []) .noSessions
  require (∀ session ∈ chunk.researchSessions, session ∈ chunk.calendar) (.chunk .outsideSlice)
  let newAlpha ← run.newAlpha chunk
  let compacted ← (newAlpha.mapM (run.compact chunk.calendar)).mapError .chunk
  let pending := pending ++ compacted
  require (pending.length ≤
    run.horizons.maxPendingAlphaSessions + chunk.researchSessions.length) (.chunk .pendingBound)
  let rows ← (pending.mapM (run.expand chunk.calendar)).mapError .chunk
  require (∀ row ∈ rows, row.session ∈ chunk.calendar) (.chunk .missingSession)
  let matrix := rows.insertionSort fun x y =>
    chunk.calendar.idxOf x.session ≤ chunk.calendar.idxOf y.session
  match run.kind with
  | .strategyBacktest => pure (pending.getLast?.toList, matrix)
  | .factorEvaluation => do
    let last ← found chunk.researchSessions.getLast? (.chunk .missingSession)
    let resolved := run.horizons.horizons.foldl
      (resolvePending chunk (chunk.calendar.idxOf last)) ([], pending)
    (chunk.evaluateLabels matrix resolved.1).mapError .labels
    let pending := resolved.2.filter fun item => item.remainingHorizons ≠ some []
    require (pending.length ≤ run.horizons.maxPendingAlphaSessions) (.chunk .pendingBound)
    require (chunk.final → pending = []) (.chunk .unresolved)
    pure (pending, matrix)

/-- The pending rows after some chunks. -/
def AlphaRun.executeChunks (chunks : List (AlphaChunk S I V O ε))
    (pending : List (PendingRow S V O)) :
    Except (ExecutionError S I ε) (List (PendingRow S V O)) :=
  chunks.foldlM (fun pending chunk => Prod.fst <$> run.executeChunk chunk pending) pending

/-- The rows that the chunks evaluate, in their order. -/
def AlphaRun.evaluatedRows (chunks : List (AlphaChunk S I V O ε)) : List (Row S I V O) :=
  chunks.flatMap fun chunk => (run.newAlpha chunk).toOption.getD []

end Chunks

/-! ### Axes -/

section Axes
variable [LinearOrder I]

/-- A row over an axis becomes the cells of the axis. -/
lemma compactPendingAlpha_eq (kind : ResearchKind) (H : HorizonSet) {members : List I}
    (hsorted : members.Pairwise (· < ·)) {row : Row S I V O}
    (h : (row.values.map Prod.fst).Sublist members) :
    (compactPendingAlpha kind H members row : Except (ChunkError S I ε) _) =
      .ok ⟨row.session, compactForm members row.values, row.coverageLoss, row.commonInputs,
        kind.newHorizons H⟩ := by
  unfold compactPendingAlpha
  by_cases hlength : row.values.length = members.length
  · have hfull : row.values.map Prod.fst = members := h.eq_of_length (by simpa using hlength)
    have hform := compactForm_full (hfull ▸ hsorted)
    rw [hfull] at hform
    simp only [if_pos hlength, require, if_pos hfull, ok_bind]
    rw [← hform]
    rfl
  · rw [if_neg hlength, compactValues_eq hsorted h]
    rfl

/-- The cells of an axis become the row that they were made of. -/
lemma expandPendingAlpha_eq {members : List I} (hsorted : members.Pairwise (· < ·))
    {row : Row S I V O} (h : (row.values.map Prod.fst).Sublist members)
    (remaining : Option (List Nat)) :
    (expandPendingAlpha members ⟨row.session, compactForm members row.values, row.coverageLoss,
      row.commonInputs, remaining⟩ : Except (ChunkError S I ε) _) = .ok row := by
  have hlength : (compactForm members row.values).length = members.length := List.length_map _
  unfold expandPendingAlpha
  simp only [require]
  rw [if_pos hlength, ok_bind, expandValues_compactForm hsorted h]
  rfl

end Axes

/-! ### What is stored -/

section Stored
variable [LinearOrder I] (run : AlphaRun S I K V ε)

/-- A pending item stores a row: one cell for each member of the row's session, the other data as
they are, and some of the horizons. -/
structure AlphaRun.Stores (item : PendingRow S V O) (row : Row S I V O) : Prop where
  instruments : (row.values.map Prod.fst).Sublist (run.data.axis row.session)
  form : item = ⟨row.session, compactForm (run.data.axis row.session) row.values,
    row.coverageLoss, row.commonInputs, item.remainingHorizons⟩
  kind : item.remainingHorizons.isSome = (run.kind.newHorizons run.horizons).isSome
  horizons : ∀ remaining ∈ item.remainingHorizons, remaining.Sublist run.horizons.horizons

variable {run} {item : PendingRow S V O} {row : Row S I V O} {calendar : List S}

lemma AlphaRun.Stores.session_eq (h : run.Stores item row) : item.session = row.session := by
  rw [h.form]

/-- A strategy backtest keeps no horizons. -/
lemma AlphaRun.Stores.withNewHorizons (h : run.Stores item row)
    (hkind : run.kind = .strategyBacktest) :
    { item with remainingHorizons := run.kind.newHorizons run.horizons } = item := by
  have hremaining := h.kind
  rw [hkind] at hremaining ⊢
  have hnone : item.remainingHorizons = none := Option.not_isSome_iff_eq_none.mp (by
    rw [hremaining]
    exact Bool.false_ne_true)
  exact congrArg (fun remaining => { item with remainingHorizons := remaining }) hnone.symm

variable [DecidableEq S]

/-- Any chunk whose slice has the session expands an item to the row that it stores. -/
lemma AlphaRun.Stores.expand_eq (h : run.Stores item row) (hmem : item.session ∈ calendar) :
    run.expand calendar item = .ok row := by
  have hsession := h.session_eq
  rw [expand, UniverseData.sortedMembers_of_mem hmem, hsession, h.form]
  exact expandPendingAlpha_eq (run.data.axis_sorted _) h.instruments _

/-- A row is stored again as it was, but with all horizons open. -/
lemma AlphaRun.Stores.compact_eq (h : run.Stores item row) (hmem : item.session ∈ calendar) :
    run.compact calendar row =
      .ok { item with remainingHorizons := run.kind.newHorizons run.horizons } := by
  have hform := h.form
  rw [h.session_eq] at hmem
  rw [compact, UniverseData.sortedMembers_of_mem hmem,
    compactPendingAlpha_eq _ _ (run.data.axis_sorted _) h.instruments, hform]

lemma AlphaRun.exists_compact (run : AlphaRun S I K V ε)
    (hinstruments : (row.values.map Prod.fst).Sublist (run.data.axis row.session))
    (hmem : row.session ∈ calendar) : ∃ item, run.compact calendar row = .ok item := by
  rw [compact, UniverseData.sortedMembers_of_mem hmem,
    compactPendingAlpha_eq _ _ (run.data.axis_sorted _) hinstruments]
  exact ⟨_, rfl⟩

/-- A new row is stored with all horizons open. -/
lemma AlphaRun.stores_of_compact {calendar : List S}
    (hinstruments : (row.values.map Prod.fst).Sublist (run.data.axis row.session))
    (hmem : row.session ∈ calendar) (h : run.compact calendar row = .ok item) :
    run.Stores item row := by
  rw [compact, UniverseData.sortedMembers_of_mem hmem,
    compactPendingAlpha_eq _ _ (run.data.axis_sorted _) hinstruments] at h
  obtain rfl := Except.ok.inj h
  refine ⟨hinstruments, rfl, rfl, fun remaining hremaining => ?_⟩
  cases hkind : run.kind with
  | factorEvaluation =>
    simp only [hkind, ResearchKind.newHorizons, Option.mem_def, Option.some.injEq] at hremaining
    rw [hremaining]
  | strategyBacktest => simp [hkind, ResearchKind.newHorizons] at hremaining

end Stored

/-! ### Runs -/

section Runs
variable [DecidableEq S] [LinearOrder I] {run : AlphaRun S I K V ε}
  {chunk : AlphaChunk S I V O ε} {pending pending' : List (PendingRow S V O)}
  {rows matrix : List (Row S I V O)}

/-- Part of a list is related to a part of its partners. -/
lemma exists_forall₂_of_sublist {α β : Type} {R : α → β → Prop} {as as' : List α} {bs : List β}
    (h : List.Forall₂ R as bs) (hsublist : as'.Sublist as) :
    ∃ bs', bs'.Sublist bs ∧ List.Forall₂ R as' bs' := by
  induction hsublist generalizing bs with
  | slnil => exact ⟨[], List.nil_sublist _, .nil⟩
  | cons a _ ih =>
    obtain _ | ⟨_, htail⟩ := h
    obtain ⟨bs', hbs', hR⟩ := ih htail
    exact ⟨bs', hbs'.cons _, hR⟩
  | cons_cons a _ ih =>
    obtain _ | ⟨hhead, htail⟩ := h
    obtain ⟨bs', hbs', hR⟩ := ih htail
    exact ⟨_ :: bs', hbs'.cons_cons _, .cons hhead hR⟩

/-- A slice with all pending sessions expands the pending items to the rows that they store. -/
lemma AlphaRun.mapM_expand {calendar : List S} (h : List.Forall₂ run.Stores pending rows)
    (hmem : ∀ item ∈ pending, item.session ∈ calendar) :
    pending.mapM (run.expand calendar) = .ok rows := by
  induction h with
  | nil => rfl
  | cons hstores _ ih =>
    rw [List.mapM_cons, hstores.expand_eq (hmem _ List.mem_cons_self), ok_bind,
      ih fun item hitem => hmem item (List.mem_cons_of_mem _ hitem)]
    rfl

lemma AlphaRun.mapM_compact {calendar : List S} (h : List.Forall₂ run.Stores pending rows)
    (hmem : ∀ item ∈ pending, item.session ∈ calendar) :
    rows.mapM (run.compact calendar) = .ok (pending.map fun item =>
      { item with remainingHorizons := run.kind.newHorizons run.horizons }) := by
  induction h with
  | nil => rfl
  | cons hstores _ ih =>
    rw [List.mapM_cons, hstores.compact_eq (hmem _ List.mem_cons_self), ok_bind,
      ih fun item hitem => hmem item (List.mem_cons_of_mem _ hitem)]
    rfl

/-- Resolving labels changes the open horizons only. -/
lemma AlphaRun.stores_resolvePending (lastNewIndex : Nat) (horizons : List Nat)
    (resolved : List (Nat × List S)) (h : List.Forall₂ run.Stores pending rows) :
    List.Forall₂ run.Stores
      (horizons.foldl (resolvePending chunk lastNewIndex) (resolved, pending)).2 rows := by
  induction horizons generalizing resolved pending with
  | nil => exact h
  | cons horizon horizons ih =>
    refine ih _ (List.forall₂_map_left_iff.mpr (h.imp fun item row hstores => ?_))
    split
    · refine ⟨hstores.instruments, ?_, ?_, fun remaining hremaining => ?_⟩
      · rw [hstores.form]
      · rw [Option.isSome_map, hstores.kind]
      · obtain ⟨before, hbefore, rfl⟩ := Option.map_eq_some_iff.mp hremaining
        exact List.erase_sublist.trans (hstores.horizons before hbefore)
    · exact hstores

/-- Storing the row of a pending item again opens all its horizons, and changes nothing else. -/
lemma AlphaRun.Stores.recompact_iff {calendar : List S} {item : PendingRow S V O}
    {row : Row S I V O} (h : run.Stores item row) (hmem : item.session ∈ calendar) :
    (run.expand calendar item >>= run.compact calendar) = .ok item ↔
      item.remainingHorizons = run.kind.newHorizons run.horizons := by
  rw [h.expand_eq hmem, ok_bind, h.compact_eq hmem, Except.ok.injEq]
  constructor
  · intro heq
    rw [← heq]
  · intro heq
    rw [← heq]

variable [DecidableEq K]

/-- The new rows of a chunk are over the axes of their sessions. -/
lemma AlphaRun.newAlpha_instruments {newAlpha : List (Row S I V O)}
    (h : run.newAlpha chunk = .ok newAlpha) : ∀ row ∈ newAlpha, row.session ∈ chunk.calendar ∧
      (row.values.map Prod.fst).Sublist (run.data.axis row.session) := by
  obtain ⟨evaluated, hevaluated, hselected⟩ := bind_ok_iff.mp h
  simp only [bind_ok_iff, require_ok_iff, pure_ok_iff] at hselected
  obtain ⟨-, -, rfl⟩ := hselected
  intro row hrow
  obtain ⟨hmem, hsublist⟩ := evaluateSessions_instruments _ _ (mapError_ok_iff.mp hevaluated) row
    (List.mem_of_mem_filter hrow)
  rw [UniverseData.sortedMembers_of_mem hmem] at hsublist
  exact ⟨hmem, hsublist⟩

lemma AlphaRun.stores_newAlpha {newAlpha : List (Row S I V O)} {compacted : List (PendingRow S V O)}
    (h : run.newAlpha chunk = .ok newAlpha)
    (hcompact : newAlpha.mapM (run.compact chunk.calendar) = .ok compacted) :
    List.Forall₂ run.Stores compacted newAlpha := by
  have hrows := run.newAlpha_instruments h
  have hforall := forall₂_of_mapM hcompact
  clear h hcompact
  induction hforall with
  | nil => exact .nil
  | cons hrow _ ih =>
    obtain ⟨hmem, hsublist⟩ := hrows _ List.mem_cons_self
    exact .cons (AlphaRun.stores_of_compact hsublist hmem hrow)
      (ih fun row hrow => hrows row (List.mem_cons_of_mem _ hrow))

/-- What a chunk does: it expands what was pending and its new rows to its matrix, and keeps some of
them with some of their horizons. -/
lemma AlphaRun.executeChunk_cases
    (h : run.executeChunk chunk pending = .ok (pending', matrix)) :
    ∃ newAlpha compacted expanded resolved, run.newAlpha chunk = .ok newAlpha ∧
      newAlpha.mapM (run.compact chunk.calendar) = .ok compacted ∧
      (pending ++ compacted).mapM (run.expand chunk.calendar) = .ok expanded ∧
      (∀ row ∈ expanded, row.session ∈ chunk.calendar) ∧
      matrix = expanded.insertionSort (fun x y =>
        chunk.calendar.idxOf x.session ≤ chunk.calendar.idxOf y.session) ∧
      pending'.Sublist resolved ∧
      (resolved = pending ++ compacted ∨ ∃ lastNewIndex, resolved =
        (run.horizons.horizons.foldl (resolvePending chunk lastNewIndex)
          ([], pending ++ compacted)).2) := by
  simp only [executeChunk, bind_ok_iff, require_ok_iff, mapError_ok_iff] at h
  obtain ⟨-, -, -, -, newAlpha, hnew, compacted, hcompact, -, -, expanded, hexpand, -, hcalendar,
    hkind⟩ := h
  cases hk : run.kind with
  | strategyBacktest =>
    simp only [hk, pure_ok_iff, Prod.mk.injEq] at hkind
    obtain ⟨rfl, rfl⟩ := hkind
    refine ⟨newAlpha, compacted, expanded, _, hnew, hcompact, hexpand, hcalendar, rfl, ?_, .inl rfl⟩
    cases hlast : (pending ++ compacted).getLast? with
    | none => exact List.nil_sublist _
    | some item => exact List.singleton_sublist.mpr (List.mem_of_getLast? hlast)
  | factorEvaluation =>
    simp only [hk, bind_ok_iff, found_ok_iff, require_ok_iff, mapError_ok_iff, pure_ok_iff,
      Prod.mk.injEq] at hkind
    obtain ⟨last, -, -, -, -, -, -, -, rfl, rfl⟩ := hkind
    exact ⟨newAlpha, compacted, expanded, _, hnew, hcompact, hexpand, hcalendar, rfl,
      List.filter_sublist, .inr ⟨_, rfl⟩⟩

/-- A chunk's matrix holds the rows that were stored and the new ones, and what is pending after it
stores some of them. -/
lemma AlphaRun.stores_executeChunk (hstores : List.Forall₂ run.Stores pending rows)
    (h : run.executeChunk chunk pending = .ok (pending', matrix)) :
    ∃ newAlpha rows', run.newAlpha chunk = .ok newAlpha ∧ rows'.Sublist (rows ++ newAlpha) ∧
      List.Forall₂ run.Stores pending' rows' ∧
      matrix = (rows ++ newAlpha).insertionSort fun x y =>
        chunk.calendar.idxOf x.session ≤ chunk.calendar.idxOf y.session := by
  obtain ⟨newAlpha, compacted, expanded, resolved, hnew, hcompact, hexpand, hcalendar, hmatrix,
    hsublist, hresolved⟩ := run.executeChunk_cases h
  have hall : List.Forall₂ run.Stores (pending ++ compacted) (rows ++ newAlpha) :=
    List.rel_append hstores (run.stores_newAlpha hnew hcompact)
  have hresolvedStores : List.Forall₂ run.Stores resolved (rows ++ newAlpha) := by
    rcases hresolved with rfl | ⟨lastNewIndex, rfl⟩
    · exact hall
    · exact run.stores_resolvePending _ _ _ hall
  obtain ⟨rows', hrows', hpending'⟩ := exists_forall₂_of_sublist hresolvedStores hsublist
  -- an item that is expanded has its session in the calendar, for so has its row
  have hsessions : ∀ item ∈ pending ++ compacted, item.session ∈ chunk.calendar := by
    intro item hitem
    obtain ⟨row, hrow, hitemRow⟩ := (mapM_mem hexpand).1 item hitem
    rw [expand, expandPendingAlpha] at hitemRow
    simp only [bind_ok_iff, require_ok_iff, pure_ok_iff] at hitemRow
    obtain ⟨-, -, rfl⟩ := hitemRow
    exact hcalendar _ hrow
  rw [run.mapM_expand hall hsessions] at hexpand
  obtain rfl := Except.ok.inj hexpand
  exact ⟨newAlpha, rows', hnew, hrows', hpending', hmatrix⟩

/-- What is pending after some chunks stores rows that they evaluated, in their order. -/
lemma AlphaRun.stores_executeChunks {chunks : List (AlphaChunk S I V O ε)}
    (hstores : List.Forall₂ run.Stores pending rows)
    (h : run.executeChunks chunks pending = .ok pending') :
    ∃ rows', rows'.Sublist (rows ++ run.evaluatedRows chunks) ∧
      List.Forall₂ run.Stores pending' rows' := by
  induction chunks generalizing pending rows with
  | nil =>
    obtain rfl := pure_ok_iff.mp h
    exact ⟨rows, List.sublist_append_left _ _, hstores⟩
  | cons chunk chunks ih =>
    rw [executeChunks, List.foldlM_cons] at h
    obtain ⟨next, hnext, hrest⟩ := bind_ok_iff.mp h
    obtain ⟨⟨next, matrix⟩, hchunk, rfl⟩ := map_ok_iff.mp hnext
    obtain ⟨newAlpha, rows', hnew, hrows', hstores', -⟩ := run.stores_executeChunk hstores hchunk
    obtain ⟨rows'', hrows'', hstores''⟩ := ih hstores' hrest
    refine ⟨rows'', hrows''.trans ?_, hstores''⟩
    have hevaluated : run.evaluatedRows (chunk :: chunks) =
        newAlpha ++ run.evaluatedRows chunks := by
      rw [evaluatedRows, List.flatMap_cons, hnew]
      rfl
    rw [hevaluated, ← List.append_assoc]
    exact hrows'.append_right _

/-- Pending Alphas are expanded to exactly the rows that the chunks evaluated, and these are stored
again as they were but with all horizons open. An item whose labels are partly resolved becomes
another one. -/
theorem pending_alpha_round_trips (run : AlphaRun S I K V ε) :
    (∀ (chunk : AlphaChunk S I V O ε) (newAlpha : List (Row S I V O)),
      run.newAlpha chunk = .ok newAlpha → newAlpha.mapM (fun row =>
        run.compact chunk.calendar row >>= run.expand chunk.calendar) = .ok newAlpha) ∧
    ∀ (chunks : List (AlphaChunk S I V O ε)) (pending : List (PendingRow S V O)),
      run.executeChunks chunks [] = .ok pending →
      ∃ rows : List (Row S I V O), rows.Sublist (run.evaluatedRows chunks) ∧
        ∀ calendar : List S, (∀ item ∈ pending, item.session ∈ calendar) →
          pending.mapM (run.expand calendar) = .ok rows ∧
          rows.mapM (run.compact calendar) = .ok (pending.map fun item =>
            { item with remainingHorizons := run.kind.newHorizons run.horizons }) ∧
          (∀ item ∈ pending, (run.expand calendar item >>= run.compact calendar) = .ok item ↔
            item.remainingHorizons = run.kind.newHorizons run.horizons) ∧
          (run.kind = .strategyBacktest → rows.mapM (run.compact calendar) = .ok pending) := by
  constructor
  · intro chunk newAlpha h
    have hrows := run.newAlpha_instruments h
    have hround : ∀ row ∈ newAlpha,
        (run.compact chunk.calendar row >>= run.expand chunk.calendar) = .ok row := by
      intro row hrow
      obtain ⟨hmem, hsublist⟩ := hrows row hrow
      obtain ⟨item, hitem⟩ := run.exists_compact hsublist hmem
      have hstores := AlphaRun.stores_of_compact hsublist hmem hitem
      rw [hitem, ok_bind, hstores.expand_eq (hstores.session_eq ▸ hmem)]
    rw [mapM_ok hround, List.map_id']
  · intro chunks pending h
    obtain ⟨rows, hrows, hstores⟩ := run.stores_executeChunks .nil h
    refine ⟨rows, hrows, fun calendar hmem => ?_⟩
    have hpartner : ∀ item ∈ pending, ∃ row, run.Stores item row :=
      forall_of_forall₂ hstores.flip fun row item hitem => ⟨row, hitem⟩
    have hcompact := run.mapM_compact hstores hmem
    refine ⟨run.mapM_expand hstores hmem, hcompact, fun item hitem => ?_, fun hkind => ?_⟩
    · obtain ⟨row, hrow⟩ := hpartner item hitem
      exact hrow.recompact_iff (hmem item hitem)
    · have hnone : ∀ item ∈ pending,
          { item with remainingHorizons := run.kind.newHorizons run.horizons } = item := by
        intro item hitem
        obtain ⟨row, hrow⟩ := hpartner item hitem
        exact hrow.withNewHorizons hkind
      rw [hcompact, List.map_congr_left hnone, List.map_id']

end Runs

/-! ### A sample -/

/-- Two instruments in three sessions, of which one has no value in the first. -/
def sampleRun (kind : ResearchKind) : AlphaRun ℕ ℕ Unit (Option ℤ) Unit where
  kind := kind
  horizons := HorizonSet.default
  neutralization := .none
  arithmetic := ⟨Option.isSome, fun _ => .ok none, fun value _ => value⟩
  data := ⟨fun _ => [2, 1], fun _ => by decide, fun _ _ => none⟩

/-- A chunk that ends with the label of the first session. -/
def sampleChunk : AlphaChunk ℕ ℕ (Option ℤ) Unit Unit where
  calendar := [1, 2, 3]
  evaluation :=
    ⟨fun instrument session => if instrument = session then none else some 5, fun _ => none⟩
  researchSessions := [1, 2, 3]
  final := false
  evaluateLabels _ _ := .ok ()

def samplePending : List (PendingRow ℕ (Option ℤ) Unit) :=
  [⟨1, [none, some (some 5)], [(.missingExpression, 1)], none, some [5, 20]⟩,
    ⟨2, [some (some 5), none], [(.missingExpression, 1)], none, some [1, 5, 20]⟩,
    ⟨3, [some (some 5), some (some 5)], [], none, some [1, 5, 20]⟩]

lemma sampleRun_executeChunks :
    (sampleRun .factorEvaluation).executeChunks [sampleChunk] [] = .ok samplePending := by
  decide

/-- The row of an item whose first label is resolved is stored with that label open again. -/
theorem recompaction_reopens_horizons :
    (sampleRun .factorEvaluation).executeChunks [sampleChunk] [] = .ok samplePending ∧
    ∃ item ∈ samplePending, item.session ∈ sampleChunk.calendar ∧
      ((sampleRun .factorEvaluation).expand sampleChunk.calendar item >>=
        (sampleRun .factorEvaluation).compact sampleChunk.calendar) ≠ .ok item := by
  refine ⟨sampleRun_executeChunks, samplePending.head (by decide), ?_⟩
  decide

/-- The pending Alphas of the sample are expanded to their rows. -/
theorem pending_alpha_round_trips_sample :
    samplePending.mapM ((sampleRun .factorEvaluation).expand sampleChunk.calendar) =
      .ok ((sampleRun .factorEvaluation).evaluatedRows [sampleChunk]) := by
  obtain ⟨rows, hrows, hround⟩ := (pending_alpha_round_trips (O := Unit)
    (sampleRun .factorEvaluation)).2 [sampleChunk] samplePending sampleRun_executeChunks
  obtain ⟨hexpand, -⟩ := hround sampleChunk.calendar (by decide)
  have hlength : rows.length = 3 := by
    have hmap := congrArg (Except.map List.length) hexpand
    exact (Except.ok.inj hmap).symm
  rw [hexpand, hrows.eq_of_length hlength]

end ThesisTrace.Factor.AlphaMatrix
