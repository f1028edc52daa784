import Mathlib.Data.Option.Basic
import ThesisTrace.Library.CanonicalJson
import ThesisTrace.Library.Transaction

/-!
# Where a Track and a rerun come from

A Track copies the frozen input and the Result identity of the Run that it is seeded from. From the
copy it rebuilds the provenance of the seed Result, and serves reruns of the Run.
-/

namespace ThesisTrace.DailyTrack.RerunSources
open JsonText Transaction

variable {F : Type}

abbrev Fields (F : Type) := List (String × Json F)

/-! ### Frozen inputs and Results -/

inductive ResearchKind
  | factorEvaluation
  | strategyBacktest
  deriving DecidableEq, Repr

def ResearchKind.text : ResearchKind → String
  | .factorEvaluation => "factor_evaluation"
  | .strategyBacktest => "strategy_backtest"

inductive FinancialReadiness
  | ready
  | readyWithPending
  | readyWithGaps
  | notReady
  deriving DecidableEq, Repr

def FinancialReadiness.text : FinancialReadiness → String
  | .ready => "ready"
  | .readyWithPending => "ready_with_pending"
  | .readyWithGaps => "ready_with_gaps"
  | .notReady => "not_ready"

/-- The values that only a Strategy Backtest has. -/
structure StrategyValues (F : Type) where
  strategy : Fields F
  costs : Fields F
  riskFreeRate : String

/-- `ImmutableRunInput`; `content` and `facts` are what is not read one by one. -/
structure ImmutableRunInput (F : Type) where
  requestedEndDate : String
  numericExecutionContract : String
  /-- A Strategy Backtest has strategy values, a Factor Evaluation has none. -/
  strategyValues : Option (StrategyValues F)
  semanticVersions : Fields F
  financialResearchReadiness : FinancialReadiness
  facts : Fields F
  content : Fields F

def ImmutableRunInput.researchKind (input : ImmutableRunInput F) : ResearchKind :=
  if input.strategyValues.isSome then .strategyBacktest else .factorEvaluation

/-- `canonical_value` -/
def ImmutableRunInput.canonicalValue (input : ImmutableRunInput F) : Fields F :=
  [("research_kind", .str input.researchKind.text),
    ("requested_end_date", .str input.requestedEndDate),
    ("numeric_execution_contract", .str input.numericExecutionContract),
    ("semantic_versions", .obj input.semanticVersions),
    ("data_admission", .obj (("financial_research_readiness",
      .str input.financialResearchReadiness.text) :: input.facts))] ++
  (match input.strategyValues with
    | some values => [("strategy", .obj values.strategy), ("costs", .obj values.costs),
        ("risk_free_rate", .str values.riskFreeRate)]
    | none => []) ++ input.content

/-- The models that read stored values, and the digest of bytes. -/
structure RunCodec (F : Type) where
  format : FloatFormat F
  sha256 : List UInt8 → String
  /-- `ImmutableRunInput.model_validate` -/
  validate : Fields F → Option (ImmutableRunInput F)
  /-- `authorable_value` -/
  authorableValue : ImmutableRunInput F → Fields F
  /-- The admission command accepts the values. -/
  acceptsCommand : Fields F → Bool
  /-- The numeric contract is the current one. -/
  currentContract : String → Bool
  /-- The whole execution contract of the input is the current one. -/
  currentExecution : ImmutableRunInput F → Bool
  validate_canonicalValue : ∀ input, validate input.canonicalValue = some input

def RunCodec.digest (codec : RunCodec F) (value : Json F) : String :=
  codec.sha256 (canonicalBytes codec.format value)

structure ResultProvenance (F : Type) where
  schemaVersion : String
  researchRunId : String
  researchKind : String
  immutableInputSha256 : String
  dataGenerationId : String
  dataThroughSession : String
  financialResearchReadiness : String
  calculationContracts : Fields F
  semanticVersions : Fields F

def textOf : Option (Json F) → Option String
  | some (.str text) => some text
  | _ => none

def mappingOf : Option (Json F) → Option (Fields F)
  | some (.obj fields) => some fields
  | _ => none

structure ExecutionClaim (F : Type) where
  runId : String
  immutableInput : ImmutableRunInput F
  dataGenerationId : String
  dataThroughSession : String

/-- `value[name]` for every name, as a mapping -/
def selectFields (value : Fields F) (names : List String) : Option (Fields F) :=
  names.mapM fun name => (lookup value name).map (name, ·)

/-- `_result_provenance` -/
def resultProvenance (codec : RunCodec F) (claim : ExecutionClaim F) :
    Option (ResultProvenance F) := do
  let value := claim.immutableInput.canonicalValue
  let calculationContracts ← selectFields value
    (if claim.immutableInput.researchKind = .strategyBacktest then
      ["numeric_execution_contract", "strategy", "costs", "risk_free_rate"]
    else ["numeric_execution_contract"])
  let dataAdmission ← mappingOf (lookup value "data_admission")
  let financialResearchReadiness ← textOf (lookup dataAdmission "financial_research_readiness")
  let semanticVersions ← mappingOf (lookup value "semantic_versions")
  return {
    schemaVersion := "research-result-v3"
    researchRunId := claim.runId
    researchKind := claim.immutableInput.researchKind.text
    immutableInputSha256 := codec.digest (.obj value)
    dataGenerationId := claim.dataGenerationId
    dataThroughSession := claim.dataThroughSession
    financialResearchReadiness := financialResearchReadiness
    calculationContracts := calculationContracts
    semanticVersions := semanticVersions }

structure RunRow (F : Type) where
  researcherId : Nat
  id : String
  succeeded : Bool
  immutableInput : Fields F
  resultManifestSha256 : Option String
  resultProvenance : Option (ResultProvenance F)

/-- The row of a Run whose Result a claim on it has published. -/
def publishResult (row : RunRow F) (manifestSha256 : String) (provenance : ResultProvenance F) :
    RunRow F :=
  { row with
    succeeded := true
    resultManifestSha256 := some manifestSha256
    resultProvenance := some provenance }

/-! ### Origins -/

structure VerifiedResultOrigin where
  kind : String
  researchRunId : String
  schemaVersion : String
  resultManifestSha256 : String
  resultChecksumSha256 : String

/-- `TrackingOrigin`, as far as it identifies its Run. -/
structure TrackingOrigin (F : Type) where
  seedRunId : String
  immutableInput : Fields F
  seedDataGenerationId : String
  seedDataThroughSession : String
  verifiedResult : VerifiedResultOrigin
  calculationContracts : Fields F

/-- `_tracking_origin`; `readResult` gives the Result that is stored under a reference. -/
def trackingOrigin (codec : RunCodec F)
    (readResult : String → ResultProvenance F → Option (Json F)) (row : RunRow F) :
    Option (TrackingOrigin F) := do
  let immutableInput ← codec.validate row.immutableInput
  guard (immutableInput.researchKind = .strategyBacktest)
  guard (codec.currentContract immutableInput.numericExecutionContract)
  let manifestSha256 ← row.resultManifestSha256
  let provenance ← row.resultProvenance
  guard (provenance.researchRunId = row.id ∧
    provenance.immutableInputSha256 = codec.digest (.obj immutableInput.canonicalValue))
  let storedResult ← readResult manifestSha256 provenance
  return {
    seedRunId := row.id
    immutableInput := immutableInput.canonicalValue
    seedDataGenerationId := provenance.dataGenerationId
    seedDataThroughSession := provenance.dataThroughSession
    verifiedResult := {
      kind := "research.result"
      researchRunId := row.id
      schemaVersion := provenance.schemaVersion
      resultManifestSha256 := manifestSha256
      resultChecksumSha256 := codec.digest storedResult }
    calculationContracts := provenance.calculationContracts }

def readinessTexts : List String := ["ready", "ready_with_pending", "ready_with_gaps", "not_ready"]

/-- `_seed_result_provenance` -/
def seedResultProvenance (codec : RunCodec F) (origin : TrackingOrigin F) :
    Option (ResultProvenance F) := do
  let semanticVersions ← mappingOf (lookup origin.immutableInput "semantic_versions")
  let dataAdmission ← mappingOf (lookup origin.immutableInput "data_admission")
  let financialReadiness ← textOf (lookup dataAdmission "financial_research_readiness")
  guard (financialReadiness ∈ readinessTexts)
  return {
    schemaVersion := origin.verifiedResult.schemaVersion
    researchRunId := origin.seedRunId
    researchKind := "strategy_backtest"
    immutableInputSha256 := codec.digest (.obj origin.immutableInput)
    dataGenerationId := origin.seedDataGenerationId
    dataThroughSession := origin.seedDataThroughSession
    financialResearchReadiness := financialReadiness
    calculationContracts := origin.calculationContracts
    semanticVersions := semanticVersions }

/-! ### Reruns -/

/-- A Track with its published checkpoints. -/
structure Checkpoint (F : Type) where
  manifestSha256 : String
  boundarySession : String
  dataGenerationId : String
  calculationContracts : Fields F

structure TrackRow (F : Type) where
  researcherId : Nat
  id : String
  origin : TrackingOrigin F
  checkpoints : List (Checkpoint F)

/-- What a rerun is resolved from. -/
structure SelectedSource (F : Type) where
  immutableInput : Fields F
  sourceRunId : String
  sourceResultManifestSha256 : String
  sourceDataGenerationId : String
  sourceCalculationContracts : Fields F
  completedSession : Option String

/-- `read_research_source` -/
def readResearchSource (tracks : List (TrackRow F)) (researcherId : Nat)
    (trackId checkpointManifestSha256 : String) : Option (SelectedSource F) := do
  let track ← tracks.find? fun track => track.researcherId = researcherId ∧ track.id = trackId
  let checkpoint ← track.checkpoints.find? fun checkpoint =>
    checkpoint.manifestSha256 = checkpointManifestSha256
  return {
    immutableInput := track.origin.immutableInput
    sourceRunId := track.origin.seedRunId
    sourceResultManifestSha256 := track.origin.verifiedResult.resultChecksumSha256
    sourceDataGenerationId := checkpoint.dataGenerationId
    sourceCalculationContracts := checkpoint.calculationContracts
    completedSession := some checkpoint.boundarySession }

/-- The source that a succeeded Run is itself. -/
def readRunSource (runs : List (RunRow F)) (researcherId : Nat) (runId : String) :
    Option (SelectedSource F) := do
  let row ← runs.find? fun row => row.researcherId = researcherId ∧ row.id = runId ∧ row.succeeded
  let manifestSha256 ← row.resultManifestSha256
  let provenance ← row.resultProvenance
  return {
    immutableInput := row.immutableInput
    sourceRunId := row.id
    sourceResultManifestSha256 := manifestSha256
    sourceDataGenerationId := provenance.dataGenerationId
    sourceCalculationContracts := provenance.calculationContracts
    completedSession := none }

inductive RerunSource
  | researchRun (runId : String)
  | dailyTrack (trackId checkpointManifestSha256 throughSession : String)
  deriving DecidableEq, Repr

structure RerunCommand where
  requestId : String
  folderId : String
  name : String
  source : RerunSource

structure RerunOrigin (F : Type) where
  sourceRunId : String
  sourceResultManifestSha256 : String
  sourceDataGenerationId : String
  sourceCalculationContracts : Fields F
  throughSession : String
  sourceTrack : Option (String × String)

inductive RerunError
  | sourceNotFound
  | researchKind
  | invalidSource
  | contractMismatch
  | checkpointBoundary
  deriving DecidableEq, Repr

/-- `^[0-9a-f]{64}$` -/
def isSha256 (text : String) : Bool :=
  text.length = 64 && text.toList.all fun c => c.isDigit || ('a' ≤ c && c ≤ 'f')

/-- `{**fields, ...}` -/
def updated (fields : Fields F) (updates : Fields F) : Fields F := updates.foldl setField fields

def selectSource (runs : List (RunRow F)) (tracks : List (TrackRow F)) (researcherId : Nat) :
    RerunSource → Option (SelectedSource F)
  | .researchRun runId => readRunSource runs researcherId runId
  | .dailyTrack trackId checkpoint _ => readResearchSource tracks researcherId trackId checkpoint

/-- The end of the rerun: the investigation date, or the end of the source Run. -/
def throughOf (source : RerunSource) (immutable : Fields F) : Option String :=
  match source with
  | .researchRun _ => textOf (lookup immutable "requested_end_date")
  | .dailyTrack _ _ through => some through

/-- `_resolve_rerun_source` -/
def resolveRerunSource (codec : RunCodec F) (runs : List (RunRow F)) (tracks : List (TrackRow F))
    (researcherId : Nat) (command : RerunCommand) :
    Except RerunError (Fields F × RerunOrigin F) := do
  let selected ← found (selectSource runs tracks researcherId command.source) .sourceNotFound
  require (textOf (lookup selected.immutableInput "research_kind") = some "strategy_backtest")
    .researchKind
  let frozen ← found (codec.validate selected.immutableInput) .invalidSource
  require (codec.currentExecution frozen) .contractMismatch
  let through ← found (throughOf command.source selected.immutableInput) .invalidSource
  require (selected.completedSession.all (through ≤ ·)) .checkpointBoundary
  let projected := updated (codec.authorableValue frozen)
    [("request_id", .str command.requestId), ("folder_id", .str command.folderId),
      ("name", .str command.name), ("end_date", .str through)]
  require (codec.acceptsCommand projected) .invalidSource
  require (isSha256 selected.sourceResultManifestSha256) .invalidSource
  return (projected,
    { sourceRunId := selected.sourceRunId
      sourceResultManifestSha256 := selected.sourceResultManifestSha256
      sourceDataGenerationId := selected.sourceDataGenerationId
      sourceCalculationContracts := selected.sourceCalculationContracts
      throughSession := through
      sourceTrack :=
        match command.source with
        | .researchRun _ => none
        | .dailyTrack trackId checkpoint _ => some (trackId, checkpoint) })

/-! ### What a Track keeps of its Run -/

section Provenance
variable {codec : RunCodec F} {readResult : String → ResultProvenance F → Option (Json F)}

lemma lookup_semantic_versions (input : ImmutableRunInput F) :
    lookup input.canonicalValue "semantic_versions" = some (.obj input.semanticVersions) := by
  simp [ImmutableRunInput.canonicalValue, lookup]

lemma lookup_data_admission (input : ImmutableRunInput F) :
    lookup input.canonicalValue "data_admission" = some (.obj (("financial_research_readiness",
      .str input.financialResearchReadiness.text) :: input.facts)) := by
  simp [ImmutableRunInput.canonicalValue, lookup]

lemma text_mem_readinessTexts (readiness : FinancialReadiness) :
    readiness.text ∈ readinessTexts := by
  cases readiness <;> decide

/-- What a claim records, but for the contracts that only a Strategy Backtest has. -/
lemma resultProvenance_spec {claim : ExecutionClaim F} {provenance : ResultProvenance F}
    (h : resultProvenance codec claim = some provenance) :
    provenance = {
      schemaVersion := "research-result-v3"
      researchRunId := claim.runId
      researchKind := claim.immutableInput.researchKind.text
      immutableInputSha256 := codec.digest (.obj claim.immutableInput.canonicalValue)
      dataGenerationId := claim.dataGenerationId
      dataThroughSession := claim.dataThroughSession
      financialResearchReadiness := claim.immutableInput.financialResearchReadiness.text
      calculationContracts := provenance.calculationContracts
      semanticVersions := claim.immutableInput.semanticVersions } := by
  simp only [resultProvenance, lookup_data_admission, lookup_semantic_versions, mappingOf,
    Option.bind_eq_bind, Option.bind_eq_some_iff, Option.some.injEq, Option.pure_def] at h
  obtain ⟨contracts, -, _, rfl, readiness, hreadiness, _, rfl, rfl⟩ := h
  have htext : readiness = claim.immutableInput.financialResearchReadiness.text := by
    simpa [lookup, textOf, eq_comm] using hreadiness
  rw [htext]

/-- The origin that a succeeded Run gives. -/
lemma trackingOrigin_spec {row : RunRow F} {origin : TrackingOrigin F}
    (h : trackingOrigin codec readResult row = some origin) :
    ∃ input manifest provenance result,
      codec.validate row.immutableInput = some input ∧ input.researchKind = .strategyBacktest ∧
      row.resultManifestSha256 = some manifest ∧ row.resultProvenance = some provenance ∧
      readResult manifest provenance = some result ∧
      origin = {
        seedRunId := row.id
        immutableInput := input.canonicalValue
        seedDataGenerationId := provenance.dataGenerationId
        seedDataThroughSession := provenance.dataThroughSession
        verifiedResult := {
          kind := "research.result"
          researchRunId := row.id
          schemaVersion := provenance.schemaVersion
          resultManifestSha256 := manifest
          resultChecksumSha256 := codec.digest result }
        calculationContracts := provenance.calculationContracts } := by
  simp only [trackingOrigin, Option.bind_eq_bind, Option.bind_eq_some_iff, Option.guard_eq_some',
    Option.pure_def, Option.some.injEq] at h
  obtain ⟨input, hinput, _, hkind, _, -, manifest, hmanifest, provenance, hprovenance, _, -,
    result, hresult, horigin⟩ := h
  exact ⟨input, manifest, provenance, result, hinput, hkind, hmanifest, hprovenance, hresult,
    horigin.symm⟩

/-- A Track rebuilds the provenance that its seed Result was published with. -/
lemma seedResultProvenance_eq {claim : ExecutionClaim F} {row : RunRow F} {manifest : String}
    {provenance : ResultProvenance F} {origin : TrackingOrigin F} (hrun : claim.runId = row.id)
    (hinput : codec.validate row.immutableInput = some claim.immutableInput)
    (hprovenance : resultProvenance codec claim = some provenance)
    (horigin : trackingOrigin codec readResult (publishResult row manifest provenance) =
      some origin) :
    seedResultProvenance codec origin = some provenance := by
  obtain ⟨input, _, _, result, hvalid, hkind, -, hstored, -, rfl⟩ := trackingOrigin_spec horigin
  obtain rfl : input = claim.immutableInput := by
    simpa [publishResult, hinput, eq_comm] using hvalid
  obtain rfl : provenance = _ := by simpa [publishResult] using hstored
  have hspec := resultProvenance_spec hprovenance
  have hkindText : claim.immutableInput.researchKind.text = "strategy_backtest" := by
    rw [hkind]
    rfl
  simp only [seedResultProvenance, publishResult, lookup_semantic_versions, lookup_data_admission,
    mappingOf, Option.bind_eq_bind, Option.bind_some]
  rw [hspec]
  simp [lookup, textOf, text_mem_readinessTexts, guard, hrun, hkindText]

end Provenance

/-! ### What a rerun takes from either source -/

section Rerun
variable {codec : RunCodec F} {readResult : String → ResultProvenance F → Option (Json F)}
  {runs : List (RunRow F)} {tracks : List (TrackRow F)} {researcherId : Nat}

lemma find_eq_of_unique {α : Type} {p : α → Bool} {as : List α} {a : α} (ha : a ∈ as)
    (hp : p a = true) (hunique : ∀ b ∈ as, p b = true → b = a) : as.find? p = some a := by
  cases hfound : as.find? p with
  | none => exact absurd hp (List.find?_eq_none.mp hfound a ha)
  | some b => rw [hunique b (List.mem_of_find?_eq_some hfound) (List.find?_some hfound)]

lemma readRunSource_spec {row : RunRow F} {manifest : String} {provenance : ResultProvenance F}
    (hids : (runs.map RunRow.id).Nodup) (hrow : publishResult row manifest provenance ∈ runs) :
    readRunSource runs row.researcherId row.id = some {
      immutableInput := row.immutableInput
      sourceRunId := row.id
      sourceResultManifestSha256 := manifest
      sourceDataGenerationId := provenance.dataGenerationId
      sourceCalculationContracts := provenance.calculationContracts
      completedSession := none } := by
  unfold readRunSource
  rw [find_eq_of_unique hrow (by simp [publishResult])]
  · rfl
  · intro other hother hmatch
    have hid : other.id = row.id := by simp_all
    exact List.inj_on_of_nodup_map hids hother hrow hid

/-- The source that any checkpoint of a Track gives. -/
lemma readResearchSource_spec {track : TrackRow F} {checkpoint : String}
    {selected : SelectedSource F} (hids : (tracks.map TrackRow.id).Nodup) (htrack : track ∈ tracks)
    (h : readResearchSource tracks track.researcherId track.id checkpoint = some selected) :
    selected.immutableInput = track.origin.immutableInput ∧
      selected.sourceResultManifestSha256 = track.origin.verifiedResult.resultChecksumSha256 := by
  unfold readResearchSource at h
  rw [find_eq_of_unique htrack (by simp)] at h
  · simp only [Option.bind_eq_bind, Option.bind_some, Option.bind_eq_some_iff, Option.pure_def,
      Option.some.injEq] at h
    obtain ⟨_, -, rfl⟩ := h
    exact ⟨rfl, rfl⟩
  · intro other hother hmatch
    have hid : other.id = track.id := by simp_all
    exact List.inj_on_of_nodup_map hids hother htrack hid

/-- What a resolved rerun is made of. -/
lemma resolveRerunSource_spec {command : RerunCommand} {projected : Fields F}
    {origin : RerunOrigin F}
    (h : resolveRerunSource codec runs tracks researcherId command = .ok (projected, origin)) :
    ∃ selected frozen, selectSource runs tracks researcherId command.source = some selected ∧
      codec.validate selected.immutableInput = some frozen ∧
      throughOf command.source selected.immutableInput = some origin.throughSession ∧
      origin.sourceResultManifestSha256 = selected.sourceResultManifestSha256 ∧
      projected = updated (codec.authorableValue frozen) [("request_id", .str command.requestId),
        ("folder_id", .str command.folderId), ("name", .str command.name),
        ("end_date", .str origin.throughSession)] := by
  simp only [resolveRerunSource, bind_ok_iff, found_ok_iff, require_ok_iff, pure_ok_iff,
    Prod.mk.injEq] at h
  obtain ⟨selected, hselected, _, -, frozen, hfrozen, _, -, through, hthrough, _, -, _, -, _, -,
    rfl, rfl⟩ := h
  exact ⟨selected, frozen, hselected, hfrozen, hthrough, rfl, rfl⟩

/-- A field that is set twice has its last value. -/
lemma setField_setField (fields : Fields F) (key : String) (first last : Json F) :
    setField (setField fields (key, first)) (key, last) = setField fields (key, last) := by
  unfold setField
  by_cases hkey : fields.any fun old => old.1 = key
  · have hmap : (fields.map fun old => if old.1 = key then (key, first) else old).any
        (fun old => old.1 = key) = true := by
      simp only [List.any_map, List.any_eq_true] at hkey ⊢
      obtain ⟨old, hold, hmatch⟩ := hkey
      exact ⟨old, hold, by simp_all⟩
    simp only [hkey, hmap, if_true, List.map_map]
    refine List.map_congr_left fun old _ => ?_
    by_cases hold : old.1 = key <;> simp [hold]
  · have hfresh : ∀ old ∈ fields, ¬ old.1 = key := fun old hold heq =>
      hkey (List.any_eq_true.mpr ⟨old, hold, by simpa using heq⟩)
    have hmap : fields.map (fun old => if old.1 = key then (key, last) else old) = fields := by
      refine (List.map_congr_left fun old hold => ?_).trans fields.map_id
      simp [hfresh old hold]
    simp [hkey, hmap]

/-- A succeeded Strategy Run, published by a claim on it, and a Track that is seeded from it. -/
structure Seeded (codec : RunCodec F)
    (readResult : String → ResultProvenance F → Option (Json F)) (runs : List (RunRow F))
    (tracks : List (TrackRow F)) (claim : ExecutionClaim F) (row : RunRow F) (manifest : String)
    (provenance : ResultProvenance F) (track : TrackRow F) : Prop where
  claimed : claim.runId = row.id
  input : codec.validate row.immutableInput = some claim.immutableInput
  recorded : resultProvenance codec claim = some provenance
  stored : publishResult row manifest provenance ∈ runs
  origin : trackingOrigin codec readResult (publishResult row manifest provenance) =
    some track.origin
  listed : track ∈ tracks
  owned : track.researcherId = row.researcherId

variable {claim : ExecutionClaim F} {row : RunRow F} {manifest : String}
  {provenance : ResultProvenance F} {track : TrackRow F}

/-- The Track names the Result by the digest of its value, and the Run by its manifest. -/
lemma Seeded.origin_spec (h : Seeded codec readResult runs tracks claim row manifest provenance
    track) {result : Json F} (hresult : readResult manifest provenance = some result) :
    track.origin.immutableInput = claim.immutableInput.canonicalValue ∧
      track.origin.verifiedResult.resultChecksumSha256 = codec.digest result := by
  obtain ⟨input, _, _, stored, hvalid, -, hmanifest, hprovenance, hstored, horigin⟩ :=
    trackingOrigin_spec h.origin
  have hinput : input = claim.immutableInput := by
    simpa [publishResult, h.input, eq_comm] using hvalid
  simp only [publishResult, Option.some.injEq] at hmanifest hprovenance
  rw [← hmanifest, ← hprovenance, hresult, Option.some.injEq] at hstored
  rw [horigin, hinput, hstored]
  exact ⟨rfl, rfl⟩

/-- A Track rebuilds the provenance of its seed, and its reruns are those of the Run; they name the
same source Result exactly when the digest of the stored Result is that of its manifest. -/
theorem rerun_sources_agree_iff (hruns : (runs.map RunRow.id).Nodup)
    (htracks : (tracks.map TrackRow.id).Nodup)
    (h : Seeded codec readResult runs tracks claim row manifest provenance track)
    {result : Json F} (hresult : readResult manifest provenance = some result)
    {requestId folderId name checkpoint through : String}
    {runCommand trackCommand : Fields F} {runOrigin trackOrigin : RerunOrigin F}
    (hrun : resolveRerunSource codec runs tracks row.researcherId
      { requestId, folderId, name, source := .researchRun row.id } = .ok (runCommand, runOrigin))
    (htrack : resolveRerunSource codec runs tracks row.researcherId
      { requestId, folderId, name, source := .dailyTrack track.id checkpoint through } =
        .ok (trackCommand, trackOrigin)) :
    (seedResultProvenance codec track.origin = some provenance ∧
      trackCommand = setField runCommand ("end_date", .str through) ∧
      (runOrigin.throughSession = through → trackCommand = runCommand) ∧
      trackOrigin.sourceResultManifestSha256 = runOrigin.sourceResultManifestSha256) ↔
    codec.digest result = manifest := by
  obtain ⟨runSource, frozen, hrunSource, hrunValid, -, hrunManifest, hrunCommand⟩ :=
    resolveRerunSource_spec hrun
  obtain ⟨trackSource, frozen', htrackSource, htrackValid, hthrough, htrackManifest,
    htrackCommand⟩ := resolveRerunSource_spec htrack
  obtain ⟨horiginInput, horiginResult⟩ := h.origin_spec hresult
  dsimp only [selectSource] at hrunSource htrackSource
  dsimp only [throughOf] at hthrough
  rw [Option.some.injEq] at hthrough
  rw [readRunSource_spec hruns h.stored, Option.some.injEq] at hrunSource
  rw [← h.owned] at htrackSource
  obtain ⟨htrackInput, htrackResult⟩ := readResearchSource_spec htracks h.listed htrackSource
  -- both sources are the frozen input of the Run
  have hfrozen : frozen = claim.immutableInput := by
    rw [← hrunSource, h.input, Option.some.injEq] at hrunValid
    exact hrunValid.symm
  have hfrozen' : frozen' = claim.immutableInput := by
    rw [htrackInput, horiginInput, codec.validate_canonicalValue, Option.some.injEq] at htrackValid
    exact htrackValid.symm
  have hcommands : trackCommand = setField runCommand ("end_date", .str through) := by
    rw [htrackCommand, hrunCommand, hfrozen, hfrozen', ← hthrough]
    exact (setField_setField _ _ _ _).symm
  have hsame (hend : runOrigin.throughSession = through) : trackCommand = runCommand := by
    rw [htrackCommand, hrunCommand, hfrozen, hfrozen', ← hthrough, hend]
  have hmanifests : trackOrigin.sourceResultManifestSha256 = runOrigin.sourceResultManifestSha256 ↔
      codec.digest result = manifest := by
    rw [htrackManifest, hrunManifest, htrackResult, horiginResult, ← hrunSource]
  exact ⟨fun hagree => hmanifests.mp hagree.2.2.2, fun hdigest =>
    ⟨seedResultProvenance_eq h.claimed h.input h.recorded h.origin, hcommands, hsame,
      hmanifests.mpr hdigest⟩⟩

end Rerun

/-! ### A Run and its Track -/

/-- A checksum in the last digit. -/
def plainSha256 (bytes : List UInt8) : String :=
  String.ofList (List.replicate 63 '0' ++
    Nat.toDigits 16 ((bytes.map UInt8.toNat).sum % 16))

def readinessOf (text : String) : Option FinancialReadiness :=
  [.ready, .readyWithPending, .readyWithGaps, .notReady].find? fun readiness =>
    readiness.text = text

/-- The values of a Strategy Backtest stand first in the rest of its input. -/
def strategyValuesOf : Fields Empty → Option (StrategyValues Empty × Fields Empty)
  | (_, .obj strategy) :: (_, .obj costs) :: (_, .str riskFreeRate) :: content =>
    some ({ strategy, costs, riskFreeRate }, content)
  | _ => none

def plainValidate : Fields Empty → Option (ImmutableRunInput Empty)
  | (_, .str kind) :: (_, .str requestedEndDate) :: (_, .str numericExecutionContract) ::
      (_, .obj semanticVersions) :: (_, .obj ((_, .str readiness) :: facts)) :: rest => do
    let financialResearchReadiness ← readinessOf readiness
    let (values, content) ← if kind = "strategy_backtest" then
      (strategyValuesOf rest).map fun (values, content) => (some values, content)
    else some (none, rest)
    return ⟨requestedEndDate, numericExecutionContract, values, semanticVersions,
      financialResearchReadiness, facts, content⟩
  | _ => none

lemma plainValidate_canonicalValue (input : ImmutableRunInput Empty) :
    plainValidate input.canonicalValue = some input := by
  obtain ⟨_, _, values, _, readiness, _, _⟩ := input
  cases values <;> cases readiness <;> rfl

def plainCodec : RunCodec Empty where
  format := ⟨Empty.elim, fun _ => none, match_elim, read_elim⟩
  sha256 := plainSha256
  validate := plainValidate
  authorableValue input := input.content ++ [("end_date", .str input.requestedEndDate)]
  acceptsCommand _ := true
  currentContract contract := contract = "numeric-v1"
  currentExecution input := input.numericExecutionContract = "numeric-v1"
  validate_canonicalValue := plainValidate_canonicalValue

def sampleInput : ImmutableRunInput Empty where
  requestedEndDate := "2024-06-28"
  numericExecutionContract := "numeric-v1"
  strategyValues := some { strategy := [], costs := [], riskFreeRate := "0.02" }
  semanticVersions := [("result", .str "v3")]
  financialResearchReadiness := .ready
  facts := []
  content := [("formula", .str "close")]

def sampleClaim : ExecutionClaim Empty where
  runId := "run"
  immutableInput := sampleInput
  dataGenerationId := "generation"
  dataThroughSession := "2024-06-28"

def sampleProvenance : ResultProvenance Empty where
  schemaVersion := "research-result-v3"
  researchRunId := "run"
  researchKind := "strategy_backtest"
  immutableInputSha256 := plainCodec.digest (.obj sampleInput.canonicalValue)
  dataGenerationId := "generation"
  dataThroughSession := "2024-06-28"
  financialResearchReadiness := "ready"
  calculationContracts := [("numeric_execution_contract", .str "numeric-v1"),
    ("strategy", .obj []), ("costs", .obj []), ("risk_free_rate", .str "0.02")]
  semanticVersions := [("result", .str "v3")]

def sampleRow : RunRow Empty where
  researcherId := 1
  id := "run"
  succeeded := false
  immutableInput := sampleInput.canonicalValue
  resultManifestSha256 := none
  resultProvenance := none

def sampleResult : Json Empty := .obj [("strategy_summary", .obj [])]

/-- The digest of a manifest, which is not the Result that it lists. -/
def sampleManifest : String := plainSha256 [7]

def sampleReadResult : String → ResultProvenance Empty → Option (Json Empty) :=
  fun _ _ => some sampleResult

def sampleOrigin : TrackingOrigin Empty where
  seedRunId := "run"
  immutableInput := sampleInput.canonicalValue
  seedDataGenerationId := "generation"
  seedDataThroughSession := "2024-06-28"
  verifiedResult := {
    kind := "research.result"
    researchRunId := "run"
    schemaVersion := "research-result-v3"
    resultManifestSha256 := sampleManifest
    resultChecksumSha256 := plainCodec.digest sampleResult }
  calculationContracts := sampleProvenance.calculationContracts

def sampleTrack : TrackRow Empty where
  researcherId := 1
  id := "track"
  origin := sampleOrigin
  checkpoints := [{
    manifestSha256 := "checkpoint"
    boundarySession := "2024-07-01"
    dataGenerationId := "later"
    calculationContracts := sampleProvenance.calculationContracts }]

lemma sample_seeded : Seeded plainCodec sampleReadResult
    [publishResult sampleRow sampleManifest sampleProvenance] [sampleTrack] sampleClaim sampleRow
    sampleManifest sampleProvenance sampleTrack where
  claimed := rfl
  input := rfl
  recorded := by
    simp only [resultProvenance]
    rfl
  stored := List.mem_singleton_self _
  origin := by
    have hinput := plainCodec.validate_canonicalValue sampleInput
    have hkind : sampleInput.researchKind = .strategyBacktest := rfl
    have hcontract : plainCodec.currentContract sampleInput.numericExecutionContract = true := rfl
    simp [trackingOrigin, publishResult, hinput, hkind, hcontract, sampleProvenance, sampleRow,
      sampleReadResult, sampleTrack, sampleOrigin, guard]
  listed := List.mem_singleton_self _
  owned := rfl

def sampleRerun (source : RerunSource) : Except RerunError (Fields Empty × RerunOrigin Empty) :=
  resolveRerunSource plainCodec [publishResult sampleRow sampleManifest sampleProvenance]
    [sampleTrack] 1 { requestId := "request", folderId := "folder", name := "again", source }

/-- The same end and the same values, but another source Result. -/
theorem rerun_sources_differ : Seeded plainCodec sampleReadResult
    [publishResult sampleRow sampleManifest sampleProvenance] [sampleTrack] sampleClaim sampleRow
    sampleManifest sampleProvenance sampleTrack ∧
    ∃ runCommand trackCommand runOrigin trackOrigin,
      sampleRerun (.researchRun "run") = .ok (runCommand, runOrigin) ∧
        sampleRerun (.dailyTrack "track" "checkpoint" "2024-06-28") =
          .ok (trackCommand, trackOrigin) ∧
        trackCommand = runCommand ∧ runOrigin.throughSession = trackOrigin.throughSession ∧
        trackOrigin.sourceResultManifestSha256 ≠ runOrigin.sourceResultManifestSha256 :=
  ⟨sample_seeded, _, _, _, _, rfl, rfl, rfl, rfl, by decide +kernel⟩

theorem rerun_sources_agree_iff_sample : ∃ runCommand trackCommand runOrigin trackOrigin,
    sampleRerun (.researchRun "run") = .ok (runCommand, runOrigin) ∧
      sampleRerun (.dailyTrack "track" "checkpoint" "2024-07-01") =
        .ok (trackCommand, trackOrigin) ∧
      ((seedResultProvenance plainCodec sampleOrigin = some sampleProvenance ∧
        trackCommand = setField runCommand ("end_date", .str "2024-07-01") ∧
        (runOrigin.throughSession = "2024-07-01" → trackCommand = runCommand) ∧
        trackOrigin.sourceResultManifestSha256 = runOrigin.sourceResultManifestSha256) ↔
      plainCodec.digest sampleResult = sampleManifest) :=
  ⟨_, _, _, _, rfl, rfl, rerun_sources_agree_iff (by simp) (by simp) sample_seeded rfl
    (show sampleRerun (.researchRun "run") = _ from rfl)
    (show sampleRerun (.dailyTrack "track" "checkpoint" "2024-07-01") = _ from rfl)⟩

end ThesisTrace.DailyTrack.RerunSources
