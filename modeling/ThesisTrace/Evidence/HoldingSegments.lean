import ThesisTrace.Evidence.HoldingPages

/-!
# Segments of daily holdings

A checkpoint stages the holdings of its chunk as a segment of its own. The final unit carries the
staged bytes of every segment under new part names: a merge verifies the segment, cuts its rows
again and pairs the pieces with the stored partitions by position.
-/

namespace ThesisTrace.Evidence
open Transaction

/-- The value of the payload `daily_holdings` -/
structure HoldingDescriptor where
  reportingPoint : String
  sessions : List Session
  parts : List HoldingPart

def postExecutionOpen : String := "post_execution_open"

/-- The parquet and JSON codecs and the digest of the publication. A partition is written in the
order of its keys. -/
structure HoldingCodec (B D : Type) where
  encode : List HoldingRow → B
  /-- The rows of bytes with the schema and without missing fields -/
  decode : B → Option (List HoldingRow)
  decode_encode : ∀ rows, (rows.Pairwise fun a b => holdingKey a < holdingKey b) →
    decode (encode rows) = some rows
  dumps : HoldingDescriptor → B
  /-- `json.loads`, for a value with the shape of a descriptor -/
  loads : B → Option HoldingDescriptor
  loads_dumps : ∀ descriptor, loads (dumps descriptor) = some descriptor
  sha256 : B → D
  byteSize : B → ℕ

structure StagedPayload (D : Type) where
  sha256 : D
  byteSize : ℕ
  deriving DecidableEq

/-- The media type and the serialization of a payload -/
inductive PayloadEncoding
  | holdingParquet
  | json
  | other
  deriving DecidableEq, Repr

structure VerifiedPayload (B : Type) where
  content : B
  encoding : PayloadEncoding

inductive HoldingPayloadName
  | dailyHoldings
  | part (index : ℕ)
  deriving DecidableEq, Repr

abbrev HoldingBundle (B : Type) := HoldingPayloadName → Option (VerifiedPayload B)

abbrev HoldingReferences (D : Type) := List (HoldingPayloadName × StagedPayload D)

inductive SegmentError
  /-- An error of the builder or of the rows of a partition -/
  | holding (error : HoldingError)
  /-- `KeyError` -/
  | missing
  /-- "Daily holding coverage is invalid" -/
  | coverage
  /-- "Daily holding partition identity is invalid" -/
  | identity
  /-- "Daily holding partition reference is invalid" -/
  | reference
  /-- A schema that is invalid, or fields that are missing -/
  | schema
  /-- "Daily holding partition bounds are invalid" -/
  | bounds
  /-- "Daily holding partition inventory is invalid" -/
  | inventory
  /-- `StopIteration` -/
  | exhausted
  deriving DecidableEq, Repr

/-! ### A builder of staged references -/

/-- `HoldingEvidencePublication` with what is stored for its partitions -/
structure HoldingBuilder (P : Type) where
  sessions : List Session
  parts : List HoldingPart
  payloads : List P

def HoldingBuilder.empty {P : Type} : HoldingBuilder P := ⟨[], [], []⟩

/-- The checks of `add_segment`, before the first change of the builder. -/
def checkSegment (covered sessions : List Session) (rows : List HoldingRow) :
    Except HoldingError Unit := do
  require (sessions ≠ [] ∧ sessions.Pairwise (· < ·)) .coverageOrder
  require (∀ last ∈ covered.getLast?, ∀ first ∈ sessions.head?, last < first) .segmentsOverlap
  require (∀ row ∈ rows, row.session ∈ sessions) .outsideCoverage
  let _ ← (holdingPartitions rows).foldlM validatePartition none

/-- What a call of `stage` stores, by the number of the call: `none` when it raises. -/
abbrev Stage (P : Type) := ℕ → List HoldingRow → Option P

section Builder

variable {P : Type}

/-- The adding loop from a call on. Where it raises, the partitions before stay added. -/
def addPieces (stage : Stage P) :
    ℕ → List (List HoldingRow) → HoldingBuilder P → HoldingBuilder P × Except SegmentError Unit
  | _, [], builder => (builder, .ok ())
  | call, rows :: pieces, builder =>
    match validatedHoldingRows rows with
    | .error error => (builder, .error (.holding error))
    | .ok values =>
      match stage call values, values.head?, values.getLast? with
      | some stored, some first, some last =>
        addPieces stage (call + 1) pieces { builder with
          parts := builder.parts ++
            [⟨builder.parts.length, values.length, holdingKey first, holdingKey last⟩]
          payloads := builder.payloads ++ [stored] }
      | _, _, _ => (builder, .error .exhausted)

/-- `add_segment` with a callback, on the builder as an object that an error may leave changed -/
def addStagedSegment (stage : Stage P) (builder : HoldingBuilder P) (sessions : List Session)
    (rows : List HoldingRow) : HoldingBuilder P × Except SegmentError Unit :=
  match checkSegment builder.sessions sessions rows with
  | .error error => (builder, .error (.holding error))
  | .ok () =>
    match addPieces stage 0 (holdingPartitions rows) builder with
    | (added, .ok ()) => ({ added with sessions := added.sessions ++ sessions }, .ok ())
    | (added, .error error) => (added, .error error)

end Builder

/-! ### Staging and merging -/

section Segments

variable {B D : Type} (codec : HoldingCodec B D)

/-- `publication.stage` of some bytes -/
def HoldingCodec.stage (content : B) : StagedPayload D :=
  ⟨codec.sha256 content, codec.byteSize content⟩

/-- The references of a staged segment and the bundle that is read back for them -/
structure StagedSegment (B D : Type) where
  references : HoldingReferences D
  bundle : HoldingBundle B

/-- The payloads of a builder that keeps the bytes, which their references stand for -/
def HoldingCodec.segment (builder : HoldingBuilder B) : StagedSegment B D :=
  let descriptor := codec.dumps ⟨postExecutionOpen, builder.sessions, builder.parts⟩
  { references := (.dailyHoldings, codec.stage descriptor) ::
      builder.payloads.zipIdx.map fun entry => (.part entry.2, codec.stage entry.1)
    bundle := fun
      | .dailyHoldings => some ⟨descriptor, .json⟩
      | .part index => builder.payloads[index]?.map fun content => ⟨content, .holdingParquet⟩ }

/-- `stage_holding_evidence` -/
def stageHoldingEvidence (sessions : List Session) (rows : List HoldingRow) :
    Except SegmentError (StagedSegment B D) :=
  match addStagedSegment (fun _ values => some (codec.encode values)) .empty sessions rows with
  | (_, .error error) => .error error
  | (builder, .ok ()) => do
    require (builder.sessions ≠ []) (.holding .noCoverage)
    return codec.segment builder

section Merge

variable [DecidableEq D]

/-- A round of the verifying loop over the parts of the descriptor -/
def verifyPart (bundle : HoldingBundle B) (references : HoldingReferences D)
    (entry : HoldingPart × ℕ) : Except SegmentError (List HoldingRow × StagedPayload D) := do
  require (entry.1.index = entry.2) .identity
  let payload ← found (bundle (.part entry.2)) .missing
  let reference ← found (references.lookup (.part entry.2)) .missing
  require (payload.encoding = .holdingParquet ∧ codec.sha256 payload.content = reference.sha256 ∧
    codec.byteSize payload.content = reference.byteSize) .reference
  let content ← found (codec.decode payload.content) .schema
  let values ← (validatedHoldingRows content).mapError .holding
  require (entry.1.rowCount = values.length ∧
    values.head?.map holdingKey = some entry.1.first ∧
    values.getLast?.map holdingKey = some entry.1.last) .bounds
  return (values, reference)

/-- The checks of `merge_verified_holding_segment`, with the rows and the references they give -/
def verifySegment (bundle : HoldingBundle B) (references : HoldingReferences D)
    (sessions : List Session) :
    Except SegmentError (List HoldingRow × List (StagedPayload D)) := do
  let payload ← found (bundle .dailyHoldings) .missing
  let descriptor ← found (codec.loads payload.content) .coverage
  require (descriptor.reportingPoint = postExecutionOpen ∧ descriptor.sessions = sessions) .coverage
  let verified ← descriptor.parts.zipIdx.mapM (verifyPart codec bundle references)
  let names := .dailyHoldings :: (List.range descriptor.parts.length).map HoldingPayloadName.part
  require ((∀ entry ∈ references, entry.1 ∈ names) ∧
    ∀ name ∈ names, name ∈ references.map Prod.fst) .inventory
  return (verified.flatMap Prod.fst, verified.map Prod.snd)

/-- `merge_verified_holding_segment` -/
def mergeVerifiedHoldingSegment (builder : HoldingBuilder (StagedPayload D))
    (bundle : HoldingBundle B) (references : HoldingReferences D) (sessions : List Session) :
    HoldingBuilder (StagedPayload D) × Except SegmentError Unit :=
  match verifySegment codec bundle references sessions with
  | .error error => (builder, .error error)
  | .ok (rows, staged) => addStagedSegment (fun call _ => staged[call]?) builder sessions rows

/-- A chunk is staged by its checkpoint and merged into the final unit. -/
def mergeChunk (builder : HoldingBuilder (StagedPayload D))
    (chunk : List Session × List HoldingRow) :
    Except SegmentError (HoldingBuilder (StagedPayload D)) := do
  let staged ← stageHoldingEvidence codec chunk.1 chunk.2
  match mergeVerifiedHoldingSegment codec builder staged.bundle staged.references chunk.1 with
  | (_, .error error) => .error error
  | (merged, .ok ()) => return merged

def mergeChunks (chunks : List (List Session × List HoldingRow)) :
    Except SegmentError (HoldingBuilder (StagedPayload D)) :=
  chunks.foldlM (mergeChunk codec) .empty

end Merge

/-- The unit of chunks that are added directly -/
def addChunks (chunks : List (List Session × List HoldingRow)) :
    Except HoldingError HoldingEvidence :=
  chunks.foldlM (fun evidence chunk => addSegment evidence chunk.1 chunk.2) .empty

/-- Some evidence with its partitions stored as an image of their rows -/
def HoldingEvidence.storedAs {P : Type} (f : List HoldingRow → P) (evidence : HoldingEvidence) :
    HoldingBuilder P :=
  ⟨evidence.sessions, evidence.parts, evidence.payloads.map f⟩

/-- The reference of a partition that is staged -/
def HoldingCodec.reference (rows : List HoldingRow) : StagedPayload D :=
  codec.stage (codec.encode rows)

end Segments

end ThesisTrace.Evidence
