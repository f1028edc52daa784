import ThesisTrace.Evidence.HoldingPagination
import ThesisTrace.Evidence.HoldingSegments

/-!
# Merged segments are the segments added directly

A staged segment is cut at the same positions when its rows are cut again, so that the pieces of a
merge meet the references of their own bytes.
-/

namespace ThesisTrace.Evidence
open Transaction

/-! ### The adding loop -/

section Builder

variable {P : Type} {stage : Stage P} {f : List HoldingRow → P}

/-- A partition that the validating loop accepts -/
def IsPiece (rows : List HoldingRow) : Prop :=
  (1 ≤ rows.length ∧ rows.length ≤ holdingPartitionRows) ∧
    rows.Pairwise fun a b => holdingKey a < holdingKey b

lemma isPiece_of_validated {pieces : List (List HoldingRow)} {previous last : Option HoldingKey}
    (h : pieces.foldlM validatePartition previous = .ok last) : ∀ rows ∈ pieces, IsPiece rows := by
  obtain ⟨hsizes, hsorted, -⟩ := validatePartition_loop h
  rw [List.pairwise_flatten] at hsorted
  exact fun rows hrows => ⟨hsizes rows hrows, hsorted.1 rows hrows⟩

lemma IsPiece.ends {rows : List HoldingRow} (h : IsPiece rows) :
    ∃ first last, rows.head? = some first ∧ rows.getLast? = some last := by
  have hne : rows ≠ [] := List.ne_nil_of_length_pos h.1.1
  exact ⟨_, _, List.head?_eq_some_head hne, List.getLast?_eq_some_getLast hne⟩

/-- The evidence after a partition is added -/
def HoldingEvidence.withPiece (evidence : HoldingEvidence) (rows : List HoldingRow)
    (first last : HoldingRow) : HoldingEvidence :=
  { evidence with
    parts := evidence.parts ++
      [⟨evidence.parts.length, rows.length, holdingKey first, holdingKey last⟩]
    payloads := evidence.payloads ++ [rows] }

lemma addPartition_eq {rows : List HoldingRow} {first last : HoldingRow} (h : IsPiece rows)
    (hfirst : rows.head? = some first) (hlast : rows.getLast? = some last)
    (evidence : HoldingEvidence) :
    addPartition evidence rows = .ok (evidence.withPiece rows first last) := by
  have hvalidated : validatedHoldingRows rows = .ok rows :=
    validatedHoldingRows_ok.mpr ⟨rfl, h⟩
  rw [addPartition, hvalidated]
  simp only [bind_ok_iff, found_ok_iff, pure_ok_iff]
  exact ⟨rows, rfl, first, hfirst, last, hlast, rfl⟩

/-- The loop that stores images of the partitions follows the one that stores their rows. -/
lemma addPieces_storedAs (pieces : List (List HoldingRow)) (call : ℕ) (evidence : HoldingEvidence)
    (hpieces : ∀ rows ∈ pieces, IsPiece rows)
    (hstage : ∀ i rows, pieces[i]? = some rows → stage (call + i) rows = some (f rows)) :
    ∃ added, pieces.foldlM addPartition evidence = .ok added ∧
      addPieces stage call pieces (evidence.storedAs f) = (added.storedAs f, .ok ()) := by
  induction pieces generalizing call evidence with
  | nil => exact ⟨evidence, rfl, rfl⟩
  | cons rows pieces ih =>
    obtain ⟨hrows, hpieces⟩ := List.forall_mem_cons.mp hpieces
    obtain ⟨first, last, hfirst, hlast⟩ := hrows.ends
    have hstored := hstage 0 rows rfl
    rw [Nat.add_zero] at hstored
    have hstage' : ∀ i piece, pieces[i]? = some piece →
        stage (call + 1 + i) piece = some (f piece) := by
      intro i piece hpiece
      have hnext := hstage (i + 1) piece hpiece
      rwa [← Nat.add_assoc, Nat.add_right_comm] at hnext
    obtain ⟨added, hadded, hloop⟩ := ih (call + 1) (evidence.withPiece rows first last) hpieces
      hstage'
    refine ⟨added, ?_, ?_⟩
    · rw [List.foldlM_cons, addPartition_eq hrows hfirst hlast]
      exact hadded
    · rw [addPieces, validatedHoldingRows_ok.mpr ⟨rfl, hrows⟩]
      simp only [hstored, hfirst, hlast]
      rw [← hloop]
      simp [HoldingEvidence.storedAs, HoldingEvidence.withPiece]

/-- A segment is added after its checks alone. -/
lemma addSegment_ok_iff {evidence added : HoldingEvidence} {sessions : List Session}
    {rows : List HoldingRow} : addSegment evidence sessions rows = .ok added ↔
      checkSegment evidence.sessions sessions rows = .ok () ∧
        ∃ built, (holdingPartitions rows).foldlM addPartition evidence = .ok built ∧
          added = { built with sessions := built.sessions ++ sessions } := by
  simp only [addSegment, checkSegment, bind_ok_iff, require_ok_iff, pure_ok_iff]
  constructor
  · rintro ⟨_, horder, _, hlater, _, hcovered, last, hlast, built, hbuilt, rfl⟩
    exact ⟨⟨(), horder, (), hlater, (), hcovered, last, hlast, trivial⟩, built, hbuilt, rfl⟩
  · rintro ⟨⟨_, horder, _, hlater, _, hcovered, last, hlast, -⟩, built, hbuilt, rfl⟩
    exact ⟨(), horder, (), hlater, (), hcovered, last, hlast, built, hbuilt, rfl⟩

lemma isPiece_of_checkSegment {covered sessions : List Session} {rows : List HoldingRow}
    (h : checkSegment covered sessions rows = .ok ()) :
    ∀ piece ∈ holdingPartitions rows, IsPiece piece := by
  simp only [checkSegment, bind_ok_iff, require_ok_iff, pure_ok_iff] at h
  obtain ⟨_, -, _, -, _, -, last, hlast, -⟩ := h
  exact isPiece_of_validated hlast

lemma ne_nil_of_checkSegment {covered sessions : List Session} {rows : List HoldingRow}
    (h : checkSegment covered sessions rows = .ok ()) : sessions ≠ [] := by
  simp only [checkSegment, bind_ok_iff, require_ok_iff, pure_ok_iff] at h
  obtain ⟨_, ⟨hne, -⟩, -⟩ := h
  exact hne

lemma checkSegment_of_addStagedSegment {builder added : HoldingBuilder P}
    {sessions : List Session} {rows : List HoldingRow}
    (h : addStagedSegment stage builder sessions rows = (added, .ok ())) :
    checkSegment builder.sessions sessions rows = .ok () := by
  unfold addStagedSegment at h
  cases hcheck : checkSegment builder.sessions sessions rows with
  | error error => simp [hcheck] at h
  | ok => rfl

/-- Without a segment before it, a segment passes its checks too. -/
lemma checkSegment_nil {covered sessions : List Session} {rows : List HoldingRow}
    (h : checkSegment covered sessions rows = .ok ()) : checkSegment [] sessions rows = .ok () := by
  simp only [checkSegment, bind_ok_iff, require_ok_iff, pure_ok_iff] at h ⊢
  obtain ⟨_, horder, _, -, _, hcovered, last, hlast, -⟩ := h
  exact ⟨(), horder, (), by simp, (), hcovered, last, hlast, trivial⟩

/-- With images of its own partitions, a segment is added just as its rows are. -/
lemma addStagedSegment_storedAs {evidence : HoldingEvidence} {sessions : List Session}
    {rows : List HoldingRow} (hcheck : checkSegment evidence.sessions sessions rows = .ok ())
    (hstage : ∀ i piece, (holdingPartitions rows)[i]? = some piece →
      stage i piece = some (f piece)) :
    ∃ added, addSegment evidence sessions rows = .ok added ∧
      addStagedSegment stage (evidence.storedAs f) sessions rows = (added.storedAs f, .ok ()) := by
  have hcalls : ∀ i piece, (holdingPartitions rows)[i]? = some piece →
      stage (0 + i) piece = some (f piece) := by
    intro i piece hpiece
    rw [Nat.zero_add]
    exact hstage i piece hpiece
  obtain ⟨built, hbuilt, hloop⟩ := addPieces_storedAs (holdingPartitions rows) 0 evidence
    (isPiece_of_checkSegment hcheck) hcalls
  refine ⟨_, addSegment_ok_iff.mpr ⟨hcheck, built, hbuilt, rfl⟩, ?_⟩
  rw [addStagedSegment, HoldingEvidence.storedAs, hcheck]
  dsimp only
  rw [← HoldingEvidence.storedAs, hloop]
  rfl

lemma addPieces_ok (pieces : List (List HoldingRow)) (call : ℕ) (builder : HoldingBuilder P)
    (hpieces : ∀ rows ∈ pieces, IsPiece rows)
    (hstage : ∀ i rows, pieces[i]? = some rows → (stage (call + i) rows).isSome) :
    (addPieces stage call pieces builder).2 = .ok () := by
  induction pieces generalizing call builder with
  | nil => rfl
  | cons rows pieces ih =>
    obtain ⟨hrows, hpieces⟩ := List.forall_mem_cons.mp hpieces
    obtain ⟨first, last, hfirst, hlast⟩ := hrows.ends
    obtain ⟨stored, hstored⟩ := Option.isSome_iff_exists.mp (hstage 0 rows rfl)
    rw [Nat.add_zero] at hstored
    rw [addPieces, validatedHoldingRows_ok.mpr ⟨rfl, hrows⟩]
    simp only [hstored, hfirst, hlast]
    apply ih _ _ hpieces
    intro i piece hpiece
    have hnext := hstage (i + 1) piece hpiece
    rwa [← Nat.add_assoc, Nat.add_right_comm] at hnext

/-- Where no call raises, a segment that is not added leaves the builder as it was. -/
lemma addStagedSegment_error {builder : HoldingBuilder P} {sessions : List Session}
    {rows : List HoldingRow} {error : SegmentError}
    (hstage : ∀ i piece, (holdingPartitions rows)[i]? = some piece → (stage i piece).isSome)
    (h : (addStagedSegment stage builder sessions rows).2 = .error error) :
    (addStagedSegment stage builder sessions rows).1 = builder := by
  cases hcheck : checkSegment builder.sessions sessions rows with
  | error error => simp [addStagedSegment, hcheck]
  | ok =>
    have hcalls : ∀ i piece, (holdingPartitions rows)[i]? = some piece →
        (stage (0 + i) piece).isSome := by
      intro i piece hpiece
      rw [Nat.zero_add]
      exact hstage i piece hpiece
    have hadded := addPieces_ok (holdingPartitions rows) 0 builder
      (isPiece_of_checkSegment hcheck) hcalls
    simp only [addStagedSegment, hcheck] at h
    split at h
    · cases h
    · next hfailed =>
      rw [hfailed] at hadded
      cases hadded

variable (f) in
lemma addStagedSegment_total {evidence : HoldingEvidence} {sessions : List Session}
    {rows : List HoldingRow} (hcheck : checkSegment evidence.sessions sessions rows = .ok ()) :
    ∃ added, addSegment evidence sessions rows = .ok added ∧
      addStagedSegment (fun _ values => some (f values)) (evidence.storedAs f) sessions rows =
        (added.storedAs f, .ok ()) := by
  have hstage : ∀ i piece, (holdingPartitions rows)[i]? = some piece →
      (fun _ values => some (f values) : Stage P) i piece = some (f piece) := fun _ _ _ => rfl
  exact addStagedSegment_storedAs hcheck hstage

end Builder

/-! ### Staging -/

section Segments

variable {B D : Type} {codec : HoldingCodec B D}

lemma empty_valid : HoldingEvidence.empty.Valid :=
  ⟨List.Pairwise.nil, trivial, by simp [HoldingEvidence.empty], List.Pairwise.nil,
    by simp [HoldingEvidence.empty]⟩

/-- The evidence of a segment of its own has its partitions. -/
lemma addSegment_empty {evidence : HoldingEvidence} {sessions : List Session}
    {rows : List HoldingRow} (h : addSegment .empty sessions rows = .ok evidence) :
    evidence.Valid ∧ evidence.sessions = sessions ∧
      evidence.payloads = holdingPartitions rows := by
  obtain ⟨-, built, hbuilt, rfl⟩ := addSegment_ok_iff.mp h
  obtain ⟨hsessions, hpayloads, -⟩ := addPartition_loop hbuilt trivial
  refine ⟨(addSegment_valid empty_valid h).1, ?_, hpayloads⟩
  dsimp only
  rw [hsessions]
  rfl

lemma stageHoldingEvidence_eq {evidence : HoldingEvidence} {sessions : List Session}
    {rows : List HoldingRow} (h : addSegment .empty sessions rows = .ok evidence) :
    stageHoldingEvidence codec sessions rows =
      .ok (codec.segment (evidence.storedAs codec.encode)) := by
  obtain ⟨hcheck, -⟩ := addSegment_ok_iff.mp h
  obtain ⟨added, hadded, hstaged⟩ := addStagedSegment_total codec.encode hcheck
  obtain rfl : evidence = added := Except.ok.inj (h.symm.trans hadded)
  have hne := ne_nil_of_checkSegment hcheck
  have hsessions := (addSegment_empty h).2.1
  rw [stageHoldingEvidence, show (HoldingBuilder.empty : HoldingBuilder B) =
    HoldingEvidence.empty.storedAs codec.encode from rfl, hstaged]
  simp only [bind_ok_iff, require_ok_iff, pure_ok_iff]
  exact ⟨(), by rwa [← hsessions] at hne, trivial⟩

/-! ### Verifying a staged segment -/

lemma describes_getElem {index : ℕ} {parts : List HoldingPart} {payloads : List (List HoldingRow)}
    (h : Describes index parts payloads) : parts.length = payloads.length ∧
      ∀ i part rows, parts[i]? = some part → payloads[i]? = some rows →
        part.index = index + i ∧ part.rowCount = rows.length ∧
          rows.head?.map holdingKey = some part.first ∧
          rows.getLast?.map holdingKey = some part.last := by
  induction parts generalizing index payloads with
  | nil =>
    cases payloads with
    | nil => simp
    | cons _ _ => exact h.elim
  | cons head parts ih =>
    cases payloads with
    | nil => exact h.elim
    | cons first payloads =>
      obtain ⟨hindex, hcount, hfirst, hlast, hrest⟩ := h
      obtain ⟨hlength, hparts⟩ := ih hrest
      refine ⟨by simp [hlength], fun i part rows hpart hrows => ?_⟩
      cases i with
      | zero =>
        cases hpart
        cases hrows
        exact ⟨hindex, hcount, hfirst, hlast⟩
      | succ i =>
        obtain ⟨hnext, hrest⟩ := hparts i part rows hpart hrows
        exact ⟨by omega, hrest⟩

variable (codec) in
lemma lookup_part_references (payloads : List B) (start index : ℕ) :
    ((payloads.zipIdx start).map fun entry =>
      (HoldingPayloadName.part entry.2, codec.stage entry.1)).lookup (.part (start + index)) =
        payloads[index]?.map codec.stage := by
  induction payloads generalizing start index with
  | nil => rfl
  | cons content payloads ih =>
    rw [List.zipIdx_cons, List.map_cons, List.lookup_cons]
    cases index with
    | zero => simp
    | succ index =>
      have hne : (HoldingPayloadName.part (start + (index + 1)) == .part start) = false := by
        simp
      rw [hne, show start + (index + 1) = start + 1 + index by omega, ih]
      simp

section Merge

variable [DecidableEq D]

lemma verifyPart_storedAs {evidence : HoldingEvidence} (hvalid : evidence.Valid) {index : ℕ}
    {part : HoldingPart} {rows : List HoldingRow} (hpart : evidence.parts[index]? = some part)
    (hrows : evidence.payloads[index]? = some rows) :
    verifyPart codec (codec.segment (evidence.storedAs codec.encode)).bundle
      (codec.segment (evidence.storedAs codec.encode)).references (part, index) =
        .ok (rows, codec.reference rows) := by
  obtain ⟨hindex, hcount, hfirst, hlast⟩ :=
    (describes_getElem hvalid.described).2 index part rows hpart hrows
  have hmem : rows ∈ evidence.payloads := List.mem_of_getElem? hrows
  have hsorted := (List.pairwise_flatten.mp hvalid.rows_sorted).1 rows hmem
  have hlookup := lookup_part_references codec (evidence.payloads.map codec.encode) 0 index
  rw [Nat.zero_add, List.getElem?_map, hrows] at hlookup
  simp only [verifyPart, bind_ok_iff, require_ok_iff, found_ok_iff, pure_ok_iff]
  refine ⟨(), by omega, ⟨codec.encode rows, .holdingParquet⟩, ?_, codec.reference rows, ?_,
    (), ⟨rfl, rfl, rfl⟩, rows, codec.decode_encode rows hsorted, rows, ?_, (),
    ⟨hcount, hfirst, hlast⟩, rfl⟩
  · simp [HoldingCodec.segment, HoldingEvidence.storedAs, hrows]
  · simp only [HoldingCodec.segment, HoldingEvidence.storedAs, List.lookup_cons]
    exact hlookup
  · rw [validatedHoldingRows_ok.mpr ⟨rfl, hvalid.sizes rows hmem, hsorted⟩]
    rfl

lemma verifyParts_storedAs {evidence : HoldingEvidence} (hvalid : evidence.Valid) :
    evidence.parts.zipIdx.mapM (verifyPart codec
      (codec.segment (evidence.storedAs codec.encode)).bundle
      (codec.segment (evidence.storedAs codec.encode)).references) =
        .ok (evidence.payloads.map fun rows => (rows, codec.reference rows)) := by
  have hlength := (describes_getElem hvalid.described).1
  have heach : ∀ entry ∈ evidence.parts.zipIdx, verifyPart codec
      (codec.segment (evidence.storedAs codec.encode)).bundle
      (codec.segment (evidence.storedAs codec.encode)).references entry =
        .ok ((fun index => ((evidence.payloads[index]?).getD [],
          codec.reference ((evidence.payloads[index]?).getD []))) entry.2) := by
    rintro ⟨part, index⟩ hentry
    obtain ⟨hlt, hpart⟩ := List.mem_zipIdx' hentry
    rw [hpart]
    have hrows := List.getElem?_eq_getElem (hlength ▸ hlt)
    rw [verifyPart_storedAs hvalid (List.getElem?_eq_getElem hlt) hrows]
    simp only [hrows, Option.getD_some]
  rw [mapM_ok heach]
  congr 1
  refine List.ext_getElem (by simp [hlength]) fun index hindex hindex' => ?_
  rw [List.length_map] at hindex'
  simp [List.getElem?_eq_getElem hindex']

variable (codec) in
lemma verifySegment_storedAs {evidence : HoldingEvidence} (hvalid : evidence.Valid) :
    verifySegment codec (codec.segment (evidence.storedAs codec.encode)).bundle
      (codec.segment (evidence.storedAs codec.encode)).references evidence.sessions =
        .ok (evidence.payloads.flatten, evidence.payloads.map codec.reference) := by
  have hlength := (describes_getElem hvalid.described).1
  simp only [verifySegment, bind_ok_iff, require_ok_iff, found_ok_iff, pure_ok_iff]
  refine ⟨_, rfl, ⟨postExecutionOpen, evidence.sessions, evidence.parts⟩,
    codec.loads_dumps _, (), ⟨rfl, rfl⟩, _, verifyParts_storedAs hvalid, (), ⟨?_, ?_⟩, ?_⟩
  · intro entry hentry
    rcases List.mem_cons.mp hentry with rfl | hentry
    · exact List.mem_cons_self
    · obtain ⟨⟨content, index⟩, hcontent, rfl⟩ := List.mem_map.mp hentry
      obtain ⟨hlt, -⟩ := List.mem_zipIdx' hcontent
      simp only [HoldingEvidence.storedAs, List.length_map] at hlt
      rw [← hlength] at hlt
      exact List.mem_cons_of_mem _ (List.mem_map_of_mem (List.mem_range.mpr hlt))
  · intro name hname
    rcases List.mem_cons.mp hname with rfl | hname
    · exact List.mem_map.mpr ⟨_, List.mem_cons_self, rfl⟩
    · obtain ⟨index, hindex, rfl⟩ := List.mem_map.mp hname
      have hlt : index < (evidence.payloads.map codec.encode).length := by
        rw [List.length_map]
        exact hlength ▸ List.mem_range.mp hindex
      refine List.mem_map.mpr ⟨_, List.mem_cons_of_mem _ (List.mem_map.mpr
        ⟨((evidence.payloads.map codec.encode)[index], index), ?_, rfl⟩), rfl⟩
      exact List.mk_mem_zipIdx_iff_getElem?.mpr (List.getElem?_eq_getElem hlt)
  · simp [List.flatMap_def, Function.comp_def]

/-! ### Merging -/

/-- A segment of its own is staged, and merged with the references of its own pieces. -/
lemma mergeChunk_eq (codec : HoldingCodec B D) (evidence : HoldingEvidence) {chunk : List Session × List HoldingRow}
    (hcheck : checkSegment [] chunk.1 chunk.2 = .ok ()) :
    ∃ stage : Stage (StagedPayload D),
      (∀ i piece, (holdingPartitions chunk.2)[i]? = some piece →
        stage i piece = some (codec.reference piece)) ∧
      mergeChunk codec (evidence.storedAs codec.reference) chunk =
        match addStagedSegment stage (evidence.storedAs codec.reference) chunk.1 chunk.2 with
        | (_, .error error) => .error error
        | (merged, .ok ()) => .ok merged := by
  obtain ⟨segment, hsegment, -⟩ : ∃ segment, addSegment .empty chunk.1 chunk.2 = .ok segment ∧ _ :=
    addStagedSegment_total codec.encode hcheck
  obtain ⟨hvalid, hsessions, hpayloads⟩ := addSegment_empty hsegment
  have hrows : segment.payloads.flatten = chunk.2 := by
    rw [hpayloads, holdingPartitions_flatten]
  have hverified := verifySegment_storedAs codec hvalid
  rw [hsessions, hrows] at hverified
  refine ⟨fun call _ => (segment.payloads.map codec.reference)[call]?,
    fun i piece hpiece => ?_, ?_⟩
  · simp only [hpayloads, List.getElem?_map, hpiece, Option.map_some]
  · rw [mergeChunk, stageHoldingEvidence_eq hsegment]
    simp only [mergeVerifiedHoldingSegment, hverified, bind, Except.bind]
    rfl

/-- A chunk is merged just when it could be added directly, with the references of its pieces. -/
lemma mergeChunk_ok_iff {evidence : HoldingEvidence} {chunk : List Session × List HoldingRow}
    {merged : HoldingBuilder (StagedPayload D)} :
    mergeChunk codec (evidence.storedAs codec.reference) chunk = .ok merged ↔
      ∃ added, addSegment evidence chunk.1 chunk.2 = .ok added ∧
        merged = added.storedAs codec.reference := by
  constructor
  · intro h
    have hcheck : checkSegment [] chunk.1 chunk.2 = .ok () := by
      simp only [mergeChunk, bind_ok_iff] at h
      obtain ⟨staged, hstaged, -⟩ := h
      unfold stageHoldingEvidence at hstaged
      split at hstaged
      · cases hstaged
      · next hadded => exact checkSegment_of_addStagedSegment hadded
    obtain ⟨stage, hstage, hmerge⟩ := mergeChunk_eq codec evidence hcheck
    rw [hmerge] at h
    split at h
    · cases h
    next built hbuilt =>
    obtain ⟨added, hadded, hstored⟩ := addStagedSegment_storedAs
      (checkSegment_of_addStagedSegment hbuilt) hstage
    rw [hstored] at hbuilt
    cases hbuilt
    cases h
    exact ⟨added, hadded, rfl⟩
  · rintro ⟨added, hadded, rfl⟩
    have hcheck := (addSegment_ok_iff.mp hadded).1
    obtain ⟨stage, hstage, hmerge⟩ := mergeChunk_eq codec evidence
      (checkSegment_nil hcheck)
    obtain ⟨added', hadded', hstored⟩ := addStagedSegment_storedAs hcheck hstage
    obtain rfl : added = added' := Except.ok.inj (hadded.symm.trans hadded')
    rw [hmerge, hstored]

lemma mergeChunks_ok_iff {chunks : List (List Session × List HoldingRow)}
    (evidence : HoldingEvidence) {merged : HoldingBuilder (StagedPayload D)} :
    chunks.foldlM (mergeChunk codec) (evidence.storedAs codec.reference) = .ok merged ↔
      ∃ added, chunks.foldlM (fun evidence chunk => addSegment evidence chunk.1 chunk.2) evidence =
        .ok added ∧ merged = added.storedAs codec.reference := by
  induction chunks generalizing evidence with
  | nil =>
    constructor
    · intro h
      cases h
      exact ⟨evidence, rfl, rfl⟩
    · rintro ⟨added, hadded, rfl⟩
      cases hadded
      rfl
  | cons chunk chunks ih =>
    simp only [List.foldlM_cons, bind_ok_iff, mergeChunk_ok_iff]
    constructor
    · rintro ⟨_, ⟨next, hnext, rfl⟩, hrest⟩
      obtain ⟨added, hadded, rfl⟩ := (ih _).mp hrest
      exact ⟨added, ⟨next, hnext, hadded⟩, rfl⟩
    · rintro ⟨added, ⟨next, hnext, hadded⟩, rfl⟩
      exact ⟨_, ⟨next, hnext, rfl⟩, (ih _).mpr ⟨added, hadded, rfl⟩⟩

/-! ### Rejected segments -/

lemma length_le_of_verifyPart {bundle : HoldingBundle B} {references : HoldingReferences D}
    {entry : HoldingPart × ℕ} {result : List HoldingRow × StagedPayload D}
    (h : verifyPart codec bundle references entry = .ok result) :
    result.1.length ≤ holdingPartitionRows := by
  simp only [verifyPart, bind_ok_iff, require_ok_iff, found_ok_iff, pure_ok_iff] at h
  obtain ⟨_, -, payload, -, reference, -, _, -, content, -, values, hvalues, _, -, rfl⟩ := h
  cases hvalidated : validatedHoldingRows content with
  | error error =>
    rw [hvalidated] at hvalues
    cases hvalues
  | ok rows =>
    rw [hvalidated] at hvalues
    cases hvalues
    obtain ⟨rfl, ⟨-, hle⟩, -⟩ := validatedHoldingRows_ok.mp hvalidated
    exact hle

/-- The rows of a verified segment are cut into no more pieces than it has partitions. -/
lemma count_le_of_verifySegment {bundle : HoldingBundle B} {references : HoldingReferences D}
    {sessions : List Session} {rows : List HoldingRow} {staged : List (StagedPayload D)}
    (h : verifySegment codec bundle references sessions = .ok (rows, staged)) :
    (holdingPartitions rows).length ≤ staged.length := by
  simp only [verifySegment, bind_ok_iff, require_ok_iff, found_ok_iff, pure_ok_iff] at h
  obtain ⟨payload, -, descriptor, -, _, -, verified, hverified, _, -, heq⟩ := h
  cases heq
  have hsizes : ∀ result ∈ verified, result.1.length ≤ holdingPartitionRows :=
    forall_of_forall₂ (forall₂_of_mapM hverified) fun _ _ hpart => length_le_of_verifyPart hpart
  have htotal : (verified.flatMap Prod.fst).length ≤ verified.length * holdingPartitionRows := by
    clear hverified
    induction verified with
    | nil => simp
    | cons result verified ih =>
      obtain ⟨hresult, hverified⟩ := List.forall_mem_cons.mp hsizes
      have hrest := ih hverified
      rw [List.flatMap_cons, List.length_append, List.length_cons, Nat.add_mul]
      omega
  rw [holdingPartitions, List.length_map, List.length_range, List.length_map, Slices.count]
  unfold holdingPartitionRows at htotal ⊢
  omega

/-- A segment that is rejected leaves the builder as it was. -/
lemma mergeVerifiedHoldingSegment_error {builder : HoldingBuilder (StagedPayload D)}
    {bundle : HoldingBundle B} {references : HoldingReferences D} {sessions : List Session}
    {error : SegmentError}
    (h : (mergeVerifiedHoldingSegment codec builder bundle references sessions).2 = .error error) :
    (mergeVerifiedHoldingSegment codec builder bundle references sessions).1 = builder := by
  unfold mergeVerifiedHoldingSegment at h ⊢
  split at h
  · rfl
  · next rows staged hverified =>
    refine addStagedSegment_error (fun i piece hpiece => ?_) h
    obtain ⟨hlt, -⟩ := List.getElem?_eq_some_iff.mp hpiece
    have hcount := count_le_of_verifySegment hverified
    have hstaged : i < staged.length := by omega
    rw [List.getElem?_eq_getElem hstaged]
    rfl

/-! ### The final unit -/

lemma addChunks_valid {chunks : List (List Session × List HoldingRow)}
    {evidence added : HoldingEvidence} (hvalid : evidence.Valid)
    (h : chunks.foldlM (fun evidence chunk => addSegment evidence chunk.1 chunk.2) evidence =
      .ok added) :
    added.Valid ∧ added.sessions = evidence.sessions ++ chunks.flatMap Prod.fst ∧
      added.payloads.flatten = evidence.payloads.flatten ++ chunks.flatMap Prod.snd := by
  induction chunks generalizing evidence with
  | nil =>
    cases h
    exact ⟨hvalid, by simp, by simp⟩
  | cons chunk chunks ih =>
    simp only [List.foldlM_cons, bind_ok_iff] at h
    obtain ⟨next, hnext, hrest⟩ := h
    obtain ⟨hnextValid, hrows⟩ := addSegment_valid hvalid hnext
    obtain ⟨-, built, hbuilt, rfl⟩ := addSegment_ok_iff.mp hnext
    have hsessions := (addPartition_loop hbuilt hvalid.described).1
    obtain ⟨hadded, haddedSessions, haddedRows⟩ := ih hnextValid hrest
    refine ⟨hadded, ?_, ?_⟩
    · rw [haddedSessions]
      dsimp only
      rw [hsessions, List.append_assoc]
      rfl
    · rw [haddedRows, hrows, List.append_assoc]
      rfl

/-- A stored part says what its partition holds, and the partition is read back. -/
def PartVerifies (codec : HoldingCodec B D) (unit : HoldingEvidence) : Prop :=
  unit.parts.length = unit.payloads.length ∧
    ∀ index (part : HoldingPart) (rows : List HoldingRow),
      unit.parts[index]? = some part → unit.payloads[index]? = some rows →
      part.index = index ∧ part.rowCount = rows.length ∧
        rows.head?.map holdingKey = some part.first ∧
        rows.getLast?.map holdingKey = some part.last ∧
        codec.decode (codec.encode rows) = some rows ∧ validatedHoldingRows rows = .ok rows

omit [DecidableEq D] in
lemma HoldingEvidence.Valid.partVerifies {unit : HoldingEvidence} (hvalid : unit.Valid) :
    PartVerifies codec unit := by
  obtain ⟨hlength, hparts⟩ := describes_getElem hvalid.described
  refine ⟨hlength, fun index part rows hpart hrows => ?_⟩
  obtain ⟨hindex, hcount, hfirst, hlast⟩ := hparts index part rows hpart hrows
  have hmem := List.mem_of_getElem? hrows
  have hsorted := (List.pairwise_flatten.mp hvalid.rows_sorted).1 rows hmem
  exact ⟨by omega, hcount, hfirst, hlast, codec.decode_encode rows hsorted,
    validatedHoldingRows_ok.mpr ⟨rfl, hvalid.sizes rows hmem, hsorted⟩⟩

theorem holding_segments_merge (codec : HoldingCodec B D) :
    (∀ chunks merged, mergeChunks codec chunks = .ok merged ↔
      ∃ direct, addChunks chunks = .ok direct ∧ merged = direct.storedAs codec.reference) ∧
    (∀ chunks direct, addChunks chunks = .ok direct →
      direct.sessions = chunks.flatMap Prod.fst ∧
        direct.payloads.flatten = chunks.flatMap Prod.snd ∧
        (chunks.flatMap Prod.snd).Pairwise (fun a b => holdingKey a < holdingKey b) ∧
        PartVerifies codec direct) ∧
    (∀ builder bundle references sessions error,
      (mergeVerifiedHoldingSegment codec builder bundle references sessions).2 = .error error →
      (mergeVerifiedHoldingSegment codec builder bundle references sessions).1 = builder) ∧
    ∀ (builder : HoldingBuilder (StagedPayload D)) sessions rows error,
      let add := addStagedSegment (fun _ values => some (codec.reference values)) builder sessions
        rows
      add.2 = .error error → add.1 = builder := by
  refine ⟨fun chunks merged => ?_, fun chunks direct hdirect => ?_,
    fun _ _ _ _ _ h => mergeVerifiedHoldingSegment_error h,
    fun _ _ _ _ h => addStagedSegment_error (fun _ _ _ => rfl) h⟩
  · exact mergeChunks_ok_iff .empty
  obtain ⟨hvalid, hsessions, hrows⟩ := addChunks_valid empty_valid hdirect
  have hall : direct.payloads.flatten = chunks.flatMap Prod.snd := by
    rw [hrows]
    rfl
  refine ⟨?_, hall, ?_, hvalid.partVerifies⟩
  · rw [hsessions]
    rfl
  · rw [← hall]
    exact hvalid.rows_sorted

end Merge

end Segments

/-- Bytes that are the values themselves -/
def sampleCodec : HoldingCodec (List HoldingRow ⊕ HoldingDescriptor) (List HoldingRow) where
  encode := .inl
  decode := Sum.getLeft?
  decode_encode := fun _ _ => rfl
  dumps := .inr
  loads := Sum.getRight?
  loads_dumps := fun _ => rfl
  sha256 := Sum.elim id fun _ => []
  byteSize := Sum.elim List.length fun _ => 1

def sampleChunks : List (List Session × List HoldingRow) :=
  [([1, 2], [⟨1, "000001", 100, "100", "2", "200", 1 / 2⟩,
      ⟨1, "000002", 50, "50", "4", "200", 1 / 2⟩]),
    ([3], []), ([4], [⟨4, "000001", 100, "100", "3", "300", 1⟩])]

theorem holding_segments_merge_sample :
    (∃ merged, mergeChunks sampleCodec sampleChunks = .ok merged ∧ merged.sessions = [1, 2, 3, 4] ∧
      merged.payloads.map StagedPayload.byteSize = [2, 1]) ∧
      (addStagedSegment (fun _ values => some (sampleCodec.reference values)) .empty [2, 1] []).1 =
        .empty := by
  obtain ⟨hmerge, hdirect, -, hrejected⟩ := holding_segments_merge sampleCodec
  have hadded : (addChunks sampleChunks).isOk = true := by decide
  cases hchunks : addChunks sampleChunks with
  | error error =>
    rw [hchunks] at hadded
    cases hadded
  | ok direct =>
    refine ⟨⟨_, (hmerge _ _).mpr ⟨direct, hchunks, rfl⟩, (hdirect _ _ hchunks).1, ?_⟩,
      hrejected _ _ _ (.holding .coverageOrder) (by decide)⟩
    have hlengths : (addChunks sampleChunks).map (fun unit => unit.payloads.map List.length) =
        .ok [2, 1] := by decide
    rw [hchunks] at hlengths
    simpa [HoldingEvidence.storedAs, HoldingCodec.reference, HoldingCodec.stage, sampleCodec,
      Function.comp_def] using Except.ok.inj hlengths

end ThesisTrace.Evidence
