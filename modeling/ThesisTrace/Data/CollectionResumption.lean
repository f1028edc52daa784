import Mathlib.Data.List.Dedup
import ThesisTrace.Data.CollectionCoverage

/-!
# Evidence of resumed collections

Whatever an earlier attempt left, a collection that comes to its end has used one receipt for each
shard, in their order. The validator reads the same observations back, and accepts the evidence
unless a leaf has a column that was not requested.
-/

namespace ThesisTrace.IndicatorCollection
open Transaction Tiling

lemma exists_mem_of_forall₂ {α β : Type*} {R : α → β → Prop} {as : List α} {bs : List β}
    (h : List.Forall₂ R as bs) {a : α} (ha : a ∈ as) : ∃ b ∈ bs, R a b := by
  induction h with
  | nil => cases ha
  | cons hR _ ih =>
    rcases List.mem_cons.mp ha with rfl | ha
    · exact ⟨_, List.mem_cons_self, hR⟩
    · obtain ⟨b, hb, hR⟩ := ih ha
      exact ⟨b, List.mem_cons_of_mem _ hb, hR⟩

lemma mapM_of_forall₂ {α ε β : Type} {f : α → Except ε β} {as : List α} {bs : List β}
    (h : List.Forall₂ (fun a b => f a = .ok b) as bs) : as.mapM f = .ok bs := by
  induction h with
  | nil => rfl
  | cons hhead _ ih =>
    rw [List.mapM_cons, hhead, ok_bind, ih]
    rfl

/-! ### The validator -/

section Validator

variable {T D : Type} [DecidableEq D] {digest : ObservationDigest T D}

lemma readObservation_ok_iff {raw : List (Observation T)} {sha256 : D}
    {observation : Observation T} : readObservation digest raw sha256 = .ok observation ↔
      (observation ∈ raw ∧ digest.sha256 observation = sha256) ∧
        validateObservation observation = .ok () := by
  have hfind : raw.find? (fun observation => digest.sha256 observation = sha256) =
      some observation ↔ observation ∈ raw ∧ digest.sha256 observation = sha256 := by
    constructor
    · intro h
      exact ⟨List.mem_of_find?_eq_some h, by simpa using List.find?_some h⟩
    · rintro ⟨hmem, rfl⟩
      cases hother : raw.find? fun other => digest.sha256 other = digest.sha256 observation with
      | none => simpa using List.find?_eq_none.mp hother observation hmem
      | some other =>
        have hsame : digest.sha256 other = digest.sha256 observation := by
          simpa using List.find?_some hother
        rw [digest.injective hsame]
  simp only [readObservation, bind_ok_iff, found_ok_iff, pure_ok_iff]
  constructor
  · rintro ⟨other, hother, _, hvalid, rfl⟩
    exact ⟨hfind.mp hother, hvalid⟩
  · rintro ⟨hmem, hvalid⟩
    exact ⟨observation, hfind.mpr hmem, (), hvalid, rfl⟩

lemma checkTiling_ok_iff {first last : CalendarDate} {intervals : List Range}
    (horder : InOrder intervals) : checkTiling first intervals = .ok last ↔
      Tiles first.ordinal last.ordinal (intervals.map Range.days) := by
  induction intervals generalizing first with
  | nil =>
    rw [checkTiling, Except.ok.injEq]
    exact CalendarDate.ordinal_injective.eq_iff.symm
  | cons interval intervals ih =>
    obtain ⟨lower, upper⟩ := interval
    obtain ⟨hle, horder⟩ := List.forall_mem_cons.mp horder
    simp only [checkTiling, bind_ok_iff, require_ok_iff, found_ok_iff, exists_and_left,
      exists_const]
    constructor
    · rintro ⟨rfl, next, hnext, hrest⟩
      refine ⟨rfl, CalendarDate.ordinal_le_iff.mpr hle, ?_⟩
      rw [← CalendarDate.ordinal_tomorrow hnext]
      exact (ih horder).mp hrest
    · rintro ⟨hfirst, -, hrest⟩
      obtain ⟨next, hnext⟩ := @CalendarDate.exists_addDays 1 upper _ hrest.le
      have hday := CalendarDate.ordinal_addDays hnext
      refine ⟨CalendarDate.ordinal_injective hfirst, next, hnext, (ih horder).mpr ?_⟩
      rw [hday]
      exact hrest

variable {raw : List (Observation T)} {evidence : CollectionEvidence D}

/-- What the validator reads of a completed request -/
structure IsLeafOf (digest : ObservationDigest T D) (raw : List (Observation T))
    (evidence : CollectionEvidence D) (completed : CompletedRequest D) (interval : Range) :
    Prop where
  lower : CalendarDate.strptime completed.request.startDate = some interval.1
  upper : CalendarDate.strptime completed.request.endDate = some interval.2
  within : evidence.startDate ≤ interval.1 ∧ interval.1 ≤ interval.2 ∧
    interval.2 ≤ evidence.endDate
  observed : ∃ observation ∈ raw, digest.sha256 observation = completed.observationSha256 ∧
    observation.fields ⊆ financialIndicatorSourceFields ∧ observation.items.length < rowLimit

lemma isLeafOf_of_checkLeaf {completed : CompletedRequest D} {interval : Range}
    (h : checkLeaf digest raw evidence completed = .ok interval) :
    IsLeafOf digest raw evidence completed interval := by
  simp only [checkLeaf, bind_ok_iff, require_ok_iff, found_ok_iff, pure_ok_iff, mapError_ok_iff,
    readObservation_ok_iff] at h
  obtain ⟨_, -, _, -, lower, hlower, upper, hupper, _, hwithin, observation, ⟨⟨hmem, hsha⟩, -⟩, _,
    ⟨⟨hfields, -⟩, hlimit⟩, _, -, rfl⟩ := h
  exact ⟨hlower, hupper, hwithin, observation, hmem, hsha, hfields, hlimit⟩

/-- The validator accepts exactly the evidence whose leaves tile its range. -/
lemma validate_ok_iff : validateIndicatorCollectionEvidence digest raw evidence = .ok () ↔
    (evidence.collectionKey ≠ "" ∧ evidence.instrumentId ≠ "" ∧ evidence.tsCode ≠ "") ∧
    (evidence.startDate ≤ evidence.endDate ∧ evidence.endDate ≤ evidence.checkedThrough) ∧
    evidence.completedRequests ≠ [] ∧ evidence.endDate.tomorrow ≠ none ∧
    ∃ intervals, evidence.completedRequests.mapM (checkLeaf digest raw evidence) = .ok intervals ∧
      Tiles evidence.startDate.ordinal (evidence.endDate.ordinal + 1)
        ((sortIntervals intervals).map Range.days) := by
  have horder : ∀ intervals, evidence.completedRequests.mapM (checkLeaf digest raw evidence) =
      .ok intervals → InOrder (sortIntervals intervals) := by
    intro intervals h range hmem
    have hmem : range ∈ intervals := (List.perm_insertionSort _ _).mem_iff.mp hmem
    exact forall_of_forall₂ (forall₂_of_mapM h)
      (fun _ _ hleaf => (isLeafOf_of_checkLeaf hleaf).within.2.1) range hmem
  simp only [validateIndicatorCollectionEvidence, bind_ok_iff, require_ok_iff, found_ok_iff,
    exists_and_left, exists_const]
  refine and_congr_right fun _ => and_congr_right fun _ => and_congr_right fun _ => ?_
  constructor
  · rintro ⟨intervals, hintervals, next, hnext, _, hend, rfl⟩
    refine ⟨by simp [hend], intervals, hintervals, ?_⟩
    rw [← CalendarDate.ordinal_tomorrow hend]
    exact (checkTiling_ok_iff (horder _ hintervals)).mp hnext
  · rintro ⟨hend, intervals, hintervals, htiles⟩
    obtain ⟨afterEnd, hafter⟩ := Option.ne_none_iff_exists'.mp hend
    refine ⟨intervals, hintervals, afterEnd, (checkTiling_ok_iff (horder _ hintervals)).mpr ?_,
      afterEnd, hafter, rfl⟩
    rw [CalendarDate.ordinal_tomorrow hafter]
    exact htiles

lemma countP_intervals {intervals : List Range} {start stop : CalendarDate}
    (h : Tiles start.ordinal (stop.ordinal + 1) ((sortIntervals intervals).map Range.days))
    (date : CalendarDate) :
    intervals.countP (fun interval => interval.1 ≤ date ∧ date ≤ interval.2) =
      if start ≤ date ∧ date ≤ stop then 1 else 0 := by
  have hperm : (sortIntervals intervals).Perm intervals := List.perm_insertionSort _ _
  have hcount := h.countP_eq date.ordinal
  rw [List.countP_map, hperm.countP_eq] at hcount
  simpa [Function.comp_def, Range.days, Nat.lt_succ_iff, CalendarDate.ordinal_le_iff] using hcount

/-- Intervals in the order of their days are already sorted. -/
lemma sortIntervals_eq {low high : ℕ} {intervals : List Range}
    (h : Tiles low high (intervals.map Range.days)) : sortIntervals intervals = intervals := by
  refine List.Pairwise.insertionSort_eq ((List.pairwise_map.mp h.pairwise).imp_of_mem ?_)
  intro a b ha _ hlt
  obtain ⟨-, hle, -⟩ := h.bounds _ (List.mem_map_of_mem ha)
  have hday : a.1 < b.1 := CalendarDate.ordinal_lt_iff.mp (hle.trans_lt hlt)
  exact (Prod.Lex.toLex_lt_toLex.mpr (.inl hday)).le

end Validator

/-! ### The checkpoint -/

section Checkpoint

variable {T D : Type} [DecidableEq D] {digest : ObservationDigest T D}
  {collectionKey : String} {environment : Environment T} {tsCode : String}
  {state state' : FinancialIndicatorCheckpoint T D} {request : Request}
  {response : RawSourceResponse} {lower upper : CalendarDate} {pending pending' : List Range}
  {shard : FinancialIndicatorSourceShard} {shards : List FinancialIndicatorSourceShard}
  {start stop : CalendarDate}

/-- A query that answers uses one observation, a stored one or a fresh one. -/
lemma queryRaw_ok
    (h : queryRaw digest collectionKey environment state request = (state', .ok response)) :
    ∃ observation, observation.response = response ∧
      state'.used = setUsed state.used ⟨request, observation⟩ ∧
      observation ∈ state'.files.raw ∧ validateObservation observation = .ok () ∧
      state.files.raw ⊆ state'.files.raw := by
  unfold queryRaw at h
  split at h
  · split at h
    · cases h
    next observation hread =>
      obtain ⟨rfl, hresponse⟩ := Prod.mk.inj h
      cases hresponse
      simp only [readReceipt, bind_ok_iff, readObservation_ok_iff] at hread
      obtain ⟨_, -, ⟨hmem, -⟩, hvalid⟩ := hread
      exact ⟨observation, rfl, rfl, hmem, hvalid, List.Subset.refl _⟩
  · split at h
    · cases h
    next fresh hprovider =>
      dsimp only at h
      split at h
      · cases h
      next hvalid =>
        obtain ⟨rfl, hresponse⟩ := Prod.mk.inj h
        cases hresponse
        exact ⟨_, rfl, rfl, List.mem_append_right _ (List.mem_singleton_self _), hvalid,
          List.subset_append_left _ _⟩
  · cases h

lemma requestOf_injective {lower' upper' : CalendarDate}
    (h : requestOf tsCode lower upper = requestOf tsCode lower' upper') :
    lower = lower' ∧ upper = upper' := by
  obtain ⟨-, hlower, hupper, -⟩ := Request.mk.inj h
  exact ⟨CalendarDate.compactText_injective hlower, CalendarDate.compactText_injective hupper⟩

lemma setUsed_fresh {used : List (Used T)} {entry : Used T}
    (h : ∀ old ∈ used, old.request ≠ entry.request) : setUsed used entry = used ++ [entry] := by
  rw [setUsed, if_neg]
  simpa using h

/-- A receipt that was used for a shard -/
structure UsedFor (tsCode : String) (raw : List (Observation T)) (entry : Used T)
    (shard : FinancialIndicatorSourceShard) : Prop where
  request_eq : entry.request = requestOf tsCode shard.lower shard.upper
  response_eq : entry.observation.response = shard.response
  stored : entry.observation ∈ raw
  valid : validateObservation entry.observation = .ok ()
  complete_eq : shard.complete = decide (shard.response.items.length < rowLimit)

lemma UsedFor.mono {raw raw' : List (Observation T)} {entry : Used T}
    (h : UsedFor tsCode raw entry shard) (hraw : raw ⊆ raw') : UsedFor tsCode raw' entry shard :=
  { h with stored := hraw h.stored }

/-- Every shard has its receipt. -/
def Recorded (tsCode : String) (state : FinancialIndicatorCheckpoint T D)
    (shards : List FinancialIndicatorSourceShard) : Prop :=
  List.Forall₂ (UsedFor tsCode state.files.raw) state.used shards

lemma Recorded.visit (h : Recorded tsCode state shards)
    (hcovers : Covers start stop ((lower, upper) :: pending) shards)
    (hvisit : visit (queryRaw digest collectionKey environment) tsCode state lower upper pending =
      (state', .ok (shard, pending'))) : Recorded tsCode state' (shards ++ [shard]) := by
  obtain ⟨hvisited, -⟩ := visit_cases hvisit
  obtain ⟨observation, hresponse, hused, hmem, hvalid, hraw⟩ := queryRaw_ok hvisited.answered
  have hfresh : ∀ old ∈ state.used, old.request ≠ requestOf tsCode lower upper := by
    intro old hold heq
    obtain ⟨visited, hvisited, hfor⟩ := exists_mem_of_forall₂ h hold
    have hsame := requestOf_injective (hfor.request_eq.symm.trans heq)
    rcases hcovers.fresh visited hvisited _ List.mem_cons_self with hfirst | ⟨-, hwider⟩
    · exact hfirst.ne hsame.1
    · exact hwider.ne hsame.2.symm
  rw [Recorded, hused, setUsed_fresh hfresh]
  refine List.rel_append (h.imp fun _ _ hfor => hfor.mono hraw) (.cons ?_ .nil)
  refine ⟨?_, hresponse, hmem, hvalid, hvisited.complete_eq⟩
  rw [hvisited.lower_eq, hvisited.upper_eq]

omit [DecidableEq D] in
lemma Recorded.leaves (h : Recorded tsCode state shards) :
    List.Forall₂ (UsedFor tsCode state.files.raw) (state.used.filter Used.isLeaf)
      (leaves shards) := by
  refine List.rel_filter (fun entry shard hfor => ?_) h
  change entry.isLeaf = true ↔ shard.complete = true
  rw [hfor.complete_eq, ← hfor.response_eq]
  rfl

variable {identity : HistoricalInstrumentIdentity} {checkedThrough : CalendarDate} {fuel : ℕ}
  {files : CheckpointFiles T D} {evidence : CollectionEvidence D}

/-- A collection that came to its end -/
structure Collected (digest : ObservationDigest T D) (collectionKey : String)
    (identity : HistoricalInstrumentIdentity) (start stop checkedThrough : CalendarDate)
    (state : FinancialIndicatorCheckpoint T D) (shards : List FinancialIndicatorSourceShard)
    (evidence : CollectionEvidence D) : Prop where
  key : collectionKey ≠ ""
  range : start ≤ stop ∧ stop ≤ checkedThrough
  identified : IsIdentity identity.tsCode
  covers : Covers start stop [] shards
  recorded : Recorded identity.tsCode state shards
  related : ∀ entry ∈ state.used, checkUsed entry = .ok ()
  evidence_eq : evidence = ⟨collectionKey, identity.instrumentId, identity.tsCode, start, stop,
    checkedThrough, (state.used.filter Used.isLeaf).map fun entry =>
      ⟨entry.request, digest.sha256 entry.observation⟩⟩

lemma collected_of_collect
    (h : collect digest collectionKey environment identity start stop checkedThrough fuel files =
      (state, some (.ok (shards, evidence)))) :
    Collected digest collectionKey identity start stop checkedThrough state shards evidence := by
  unfold collect at h
  dsimp only at h
  split at h
  · cases h
  next hrange =>
    split at h
    · cases h
    next hkey =>
      split at h
      · cases h
      · cases h
      next final shards' hreport =>
        obtain ⟨rfl, hresult⟩ := Prod.mk.inj h
        rw [Option.some.injEq, map_ok_iff] at hresult
        obtain ⟨evidence', hevidence, hpair⟩ := hresult
        obtain ⟨rfl, rfl⟩ := Prod.mk.inj hpair
        simp only [evidenceOf, completedRequests, observations, bind_ok_iff, pure_ok_iff] at hevidence
        obtain ⟨_, ⟨_, ⟨_, hchecked, -⟩, rfl⟩, rfl⟩ := hevidence
        unfold collectReportRange at hreport
        split at hreport
        next hidentity =>
          have hinitial : Covers start stop [(start, stop)] [] ∧
              Recorded identity.tsCode (⟨files, [], 0⟩ : FinancialIndicatorCheckpoint T D) [] :=
            ⟨Covers.initial hidentity.1, .nil⟩
          have hboth := collectLoop_preserves
            (P := fun state pending shards => Covers start stop pending shards ∧
              Recorded identity.tsCode state shards)
            (fun _ _ _ _ _ _ _ _ hboth hvisit =>
              ⟨hboth.1.visit hvisit, hboth.2.visit hboth.1 hvisit⟩)
            hinitial hreport
          refine ⟨hkey, not_not.mp hrange, hidentity.2, hboth.1, hboth.2, fun entry hentry => ?_,
            rfl⟩
          obtain ⟨_, -, hok⟩ := exists_mem_of_mapM hchecked hentry
          exact hok
        · cases hreport

omit [DecidableEq D] in
lemma checkLeafRow_of_related {entry : Used T} {item : List Cell}
    (hfor : UsedFor identity.tsCode state.files.raw entry shard)
    (hcode : evidence.tsCode = identity.tsCode)
    (hlength : item.length = entry.observation.fields.length)
    (hrelated : relatedRow entry.request entry.observation.fields item = true) :
    checkLeafRow evidence shard.lower shard.upper entry.observation.fields item = .ok () := by
  rw [relatedRow, Bool.and_eq_true, decide_eq_true_eq, Option.any_eq_true] at hrelated
  obtain ⟨hts, period, hperiod, hdates⟩ := hrelated
  simp only [Bool.and_eq_true, decide_eq_true_eq] at hdates
  obtain ⟨⟨hcompact, hlow⟩, hhigh⟩ := hdates
  obtain ⟨date, hdate⟩ := CalendarDate.isCompact_iff.mp hcompact
  rw [hfor.request_eq] at hts hlow hhigh
  rw [requestOf, ← hdate, CalendarDate.compactText_le_iff] at hlow hhigh
  simp only [checkLeafRow, bind_ok_iff, require_ok_iff, found_ok_iff]
  refine ⟨(), hlength, period, hperiod, date, ?_, ?_⟩
  · rw [← hdate, CalendarDate.strptime_compactText]
  · rw [hcode]
    exact ⟨hts, hlow, hhigh⟩

/-- The validator reads a leaf back where its response has no column that was not requested. -/
lemma checkLeaf_of_used {entry : Used T} (hfor : UsedFor identity.tsCode state.files.raw entry shard)
    (hcode : evidence.tsCode = identity.tsCode)
    (hwithin : evidence.startDate ≤ shard.lower ∧ shard.lower ≤ shard.upper ∧
      shard.upper ≤ evidence.endDate)
    (hrelated : checkUsed entry = .ok ()) (hleaf : shard.complete = true)
    (hfields : shard.response.fields ⊆ financialIndicatorSourceFields) :
    checkLeaf digest state.files.raw evidence
      ⟨entry.request, digest.sha256 entry.observation⟩ = .ok shard.range := by
  rw [hfor.complete_eq, ← hfor.response_eq] at hleaf
  rw [← hfor.response_eq] at hfields
  simp only [checkUsed, bind_ok_iff, require_ok_iff, hfor.request_eq] at hrelated
  obtain ⟨_, hrequested, hrows⟩ := hrelated
  have hitems : entry.observation.items.mapM
      (checkLeafRow evidence shard.lower shard.upper entry.observation.fields) =
        .ok (entry.observation.items.map fun _ => ()) := by
    refine mapM_ok fun item hitem => ?_
    obtain ⟨hlength, hrow⟩ := hrows item hitem
    rw [← hfor.request_eq] at hrow
    exact checkLeafRow_of_related hfor hcode hlength hrow
  simp only [checkLeaf, bind_ok_iff, require_ok_iff, found_ok_iff, pure_ok_iff, mapError_ok_iff,
    readObservation_ok_iff, hfor.request_eq]
  exact ⟨(), rfl, (), hcode.symm, shard.lower, CalendarDate.strptime_compactText _, shard.upper,
    CalendarDate.strptime_compactText _, (), hwithin, entry.observation, ⟨⟨hfor.stored, rfl⟩,
      hfor.valid⟩, (), ⟨⟨hfields, hrequested⟩, of_decide_eq_true hleaf⟩, _, hitems, rfl⟩

/-- The validator accepts what was collected, unless a leaf has a column that was not requested. -/
lemma Collected.validated_iff
    (h : Collected digest collectionKey identity start stop checkedThrough state shards evidence) :
    validateIndicatorCollectionEvidence digest state.files.raw evidence = .ok () ↔
      identity.instrumentId ≠ "" ∧ stop.tomorrow ≠ none ∧
        ∀ shard ∈ leaves shards, shard.response.fields ⊆ financialIndicatorSourceFields := by
  have hevidence := h.evidence_eq
  have hleaves := h.recorded.leaves
  have htiles : Tiles start.ordinal (stop.ordinal + 1)
      (((leaves shards).map (·.range)).map Range.days) := by
    have htiles := h.covers.tiles
    rw [List.map_nil, List.append_nil] at htiles
    rw [List.map_map]
    exact htiles
  rw [validate_ok_iff]
  constructor
  · rintro ⟨⟨-, hid, -⟩, -, -, htomorrow, intervals, hintervals, -⟩
    rw [hevidence] at hid htomorrow
    refine ⟨hid, htomorrow, fun shard hshard => ?_⟩
    obtain ⟨entry, hentry, hfor⟩ := exists_mem_of_forall₂ hleaves.flip hshard
    have hcompleted : (⟨entry.request, digest.sha256 entry.observation⟩ : CompletedRequest D) ∈
        evidence.completedRequests := by
      rw [hevidence]
      exact List.mem_map_of_mem hentry
    obtain ⟨interval, -, hread⟩ := exists_mem_of_mapM hintervals hcompleted
    obtain ⟨observation, -, hsha, hfields, -⟩ := (isLeafOf_of_checkLeaf hread).observed
    rw [digest.injective hsha] at hfields
    rw [← hfor.response_eq]
    exact hfields
  · rintro ⟨hid, htomorrow, hfields⟩
    have hread : List.Forall₂ (fun completed interval =>
        checkLeaf digest state.files.raw evidence completed = .ok interval)
        evidence.completedRequests ((leaves shards).map (·.range)) := by
      rw [hevidence, List.forall₂_map_left_iff, List.forall₂_map_right_iff]
      refine (List.forall₂_iff_zip.mp hleaves).elim fun hlength hzip =>
        List.forall₂_iff_zip.mpr ⟨hlength, fun {entry shard} hmem => ?_⟩
      obtain ⟨hentry, hshard⟩ := List.of_mem_zip hmem
      obtain ⟨hshard', hcomplete⟩ := List.mem_filter.mp hshard
      exact checkLeaf_of_used (hzip hmem) rfl (h.covers.within _ hshard')
        (h.related _ (List.mem_filter.mp hentry).1) hcomplete (hfields _ hshard)
    refine ⟨?_, ?_, ?_, ?_, _, mapM_of_forall₂ hread, ?_⟩
    · rw [hevidence]
      exact ⟨h.key, hid, h.identified.1⟩
    · rw [hevidence]
      exact h.range
    · intro hnil
      rw [hnil] at hread
      rw [List.forall₂_nil_left_iff.mp hread] at htiles
      have hempty : start.ordinal = stop.ordinal + 1 := htiles
      have hle := CalendarDate.ordinal_le_iff.mpr h.range.1
      omega
    · rw [hevidence]
      exact htomorrow
    · rw [sortIntervals_eq htiles, hevidence]
      exact htiles

/-- A range that the supplier answers in one response is collected. -/
lemma collect_answered {observation : Observation T}
    (hrange : start ≤ stop ∧ stop ≤ checkedThrough) (hkey : collectionKey ≠ "")
    (hidentity : IsIdentity identity.tsCode)
    (hnew : files.receipts (requestOf identity.tsCode start stop) = [])
    (hanswer : environment.provider 0 (requestOf identity.tsCode start stop) =
      .ok observation.response)
    (hobserved : observation.observedAt = environment.clock 0)
    (hvalid : validateObservation observation = .ok ())
    (hchecked : checkResponse identity.tsCode start stop observation.response = .ok ())
    (hused : checkUsed ⟨requestOf identity.tsCode start stop, observation⟩ = .ok ())
    (hleaf : observation.items.length < rowLimit) :
    ∃ state evidence, collect digest collectionKey environment identity start stop checkedThrough 1
      files = (state, some (.ok ([⟨start, stop, observation.response, true⟩], evidence))) := by
  obtain ⟨observedAt, fields, items⟩ := observation
  obtain rfl : observedAt = environment.clock 0 := hobserved
  let request := requestOf identity.tsCode start stop
  let observation : Observation T := ⟨environment.clock 0, fields, items⟩
  let state : FinancialIndicatorCheckpoint T D :=
    ⟨⟨Function.update files.receipts request [⟨collectionKey, request, digest.sha256 observation⟩],
      files.raw ++ [observation]⟩, [⟨request, observation⟩], 1⟩
  have hquery : queryRaw digest collectionKey environment ⟨files, [], 0⟩ request =
      (state, .ok ⟨fields, items⟩) := by
    rw [queryRaw]
    dsimp only
    rw [hnew]
    dsimp only
    rw [hanswer]
    dsimp only [Observation.response]
    rw [hvalid]
    rfl
  have hvisit : visit (queryRaw digest collectionKey environment) identity.tsCode
      ⟨files, [], 0⟩ start stop [] = (state, .ok (⟨start, stop, ⟨fields, items⟩, true⟩, [])) := by
    rw [visit, hquery]
    dsimp only
    rw [show checkResponse identity.tsCode start stop ⟨fields, items⟩ = .ok () from hchecked]
    simp only [decide_eq_true hleaf, if_true]
    rfl
  have hshards : collectReportRange (queryRaw digest collectionKey environment) identity.tsCode 1
      ⟨files, [], 0⟩ start stop = (state, some (.ok [⟨start, stop, ⟨fields, items⟩, true⟩])) := by
    rw [collectReportRange, if_pos ⟨hrange.1, hidentity⟩, collectLoop, hvisit]
    rfl
  have hevidence : ∃ evidence, evidenceOf digest collectionKey identity start stop checkedThrough
      state = .ok evidence := by
    rw [evidenceOf, completedRequests, observations, List.mapM_cons, hused]
    exact ⟨_, rfl⟩
  obtain ⟨evidence, hevidence⟩ := hevidence
  refine ⟨state, evidence, ?_⟩
  rw [collect, if_neg (not_not.mpr hrange), if_neg hkey, hshards]
  simp only [hevidence]
  rfl

end Checkpoint

/-! ### Coverage -/

lemma collectReportRange_terminates {S : Type} (query : Query S) (tsCode : String) (state : S)
    (start stop : CalendarDate) : ∃ final result, ∀ fuel,
      2 * (stop.ordinal - start.ordinal) + 1 ≤ fuel →
        collectReportRange query tsCode fuel state start stop = (final, some result) := by
  by_cases hrange : start ≤ stop ∧ IsIdentity tsCode
  · have horder : InOrder [(start, stop)] := List.forall_mem_singleton.mpr hrange.1
    obtain ⟨final, result, hresult⟩ := collectLoop_terminates query tsCode state [] horder
    refine ⟨final, result, fun fuel hfuel => ?_⟩
    rw [collectReportRange, if_pos hrange]
    exact hresult fuel (by simpa [work] using hfuel)
  · exact ⟨state, .error .range, fun fuel _ => by rw [collectReportRange, if_neg hrange]⟩

/-- The halving of a report range ends, and its leaves are the days of the range, in order and each
once. The evidence of a collection, after any interrupted attempts, is accepted exactly where the
instrument has a name, the range has a next day and no leaf has a column that was not requested.
Whatever is accepted tiles its range with responses below the cap. -/
theorem indicator_collection_covers {S T D : Type} [DecidableEq D] (query : Query S)
    (tsCode : String) (initial : S) (start stop : CalendarDate) (digest : ObservationDigest T D)
    (collectionKey : String) (identity : HistoricalInstrumentIdentity)
    (checkedThrough : CalendarDate) (files : CheckpointFiles T D)
    (interruptions : List (Interruption T)) (environment : Environment T) :
    ((∃ final result, ∀ fuel, 2 * (stop.ordinal - start.ordinal) + 1 ≤ fuel →
        collectReportRange query tsCode fuel initial start stop = (final, some result)) ∧
      ∀ fuel final shards,
        collectReportRange query tsCode fuel initial start stop = (final, some (.ok shards)) →
          ((leaves shards).Pairwise fun a b => a.upper < b.lower) ∧
          ∀ date, (leaves shards).countP (fun shard => shard.lower ≤ date ∧ date ≤ shard.upper) =
            if start ≤ date ∧ date ≤ stop then 1 else 0) ∧
    (∀ fuel state shards evidence,
      collect digest collectionKey environment identity start stop checkedThrough fuel
        (interruptions.foldl (interrupted digest collectionKey identity start stop checkedThrough)
          files) = (state, some (.ok (shards, evidence))) →
        (validateIndicatorCollectionEvidence digest state.files.raw evidence = .ok () ↔
          identity.instrumentId ≠ "" ∧ stop.tomorrow ≠ none ∧
            ∀ shard ∈ leaves shards, shard.response.fields ⊆ financialIndicatorSourceFields)) ∧
    ∀ raw (evidence : CollectionEvidence D),
      validateIndicatorCollectionEvidence digest raw evidence = .ok () →
        ∃ intervals,
          List.Forall₂ (IsLeafOf digest raw evidence) evidence.completedRequests intervals ∧
          ∀ date, intervals.countP (fun interval => interval.1 ≤ date ∧ date ≤ interval.2) =
            if evidence.startDate ≤ date ∧ date ≤ evidence.endDate then 1 else 0 := by
  refine ⟨⟨collectReportRange_terminates query tsCode initial start stop,
    fun fuel final shards h => ?_⟩, fun fuel state shards evidence h => ?_, fun raw evidence h => ?_⟩
  · have hcovers := collectReportRange_covers h
    exact ⟨hcovers.pairwise_leaves, hcovers.countP_leaves⟩
  · exact (collected_of_collect h).validated_iff
  · obtain ⟨-, -, -, -, intervals, hintervals, htiles⟩ := validate_ok_iff.mp h
    exact ⟨intervals, (forall₂_of_mapM hintervals).imp fun _ _ => isLeafOf_of_checkLeaf,
      countP_intervals htiles⟩

def sampleDigest : ObservationDigest ℕ (Observation ℕ) := ⟨id, Function.injective_id⟩

def sampleDay : CalendarDate := ⟨2024, 1, 1, by decide⟩

/-- A supplier without reports that answers with the requested columns and others -/
def answering (others : List String) : Environment ℕ :=
  ⟨fun _ request => .ok ⟨request.fields.dedup ++ others, []⟩, id⟩

/-- The answer of such a supplier is collected, whatever is in the raw store. -/
lemma answering_collected {others : List String}
    (hnodup : (financialIndicatorSourceFields.dedup ++ others).Nodup)
    (raw : List (Observation ℕ)) : ∃ state evidence,
    collect sampleDigest "key" (answering others) ⟨"instrument", "code"⟩ sampleDay sampleDay
      sampleDay 1 ⟨fun _ => [], raw⟩ = (state, some (.ok
        ([⟨sampleDay, sampleDay, ⟨financialIndicatorSourceFields.dedup ++ others, []⟩, true⟩],
          evidence))) := by
  have hkeys : ["ts_code", "end_date", "ann_date"] ⊆ financialIndicatorSourceFields := by
    decide
  obtain ⟨columns, hcolumns⟩ :
      ∃ columns, columns = financialIndicatorSourceFields.dedup ++ others := ⟨_, rfl⟩
  rw [← hcolumns] at hnodup ⊢
  have hrequested : financialIndicatorSourceFields ⊆ columns := fun field hfield => by
    rw [hcolumns]
    exact List.mem_append_left _ (List.mem_dedup.mpr hfield)
  have hanswer : (answering others).provider 0 (requestOf "code" sampleDay sampleDay) =
      .ok ⟨columns, []⟩ := by
    rw [hcolumns]
    rfl
  have hvalid : validateObservation (⟨0, columns, []⟩ : Observation ℕ) = .ok () :=
    require_ok_iff.mpr ⟨hnodup, fun _ hkey => hrequested (hkeys hkey), by simp⟩
  have hchecked : checkResponse "code" sampleDay sampleDay ⟨columns, []⟩ = .ok () := by
    simp only [checkResponse, bind_ok_iff, require_ok_iff, List.mapM_nil, pure_ok_iff]
    exact ⟨(), ⟨hnodup, hrequested⟩, [], rfl, trivial⟩
  have hused : checkUsed (⟨requestOf "code" sampleDay sampleDay, ⟨0, columns, []⟩⟩ : Used ℕ) =
      .ok () := by
    simp only [checkUsed, bind_ok_iff, require_ok_iff]
    exact ⟨(), hrequested, by simp⟩
  have hkey : "key" ≠ "" := by decide
  have hidentity : IsIdentity "code" := by decide
  exact collect_answered ⟨le_rfl, le_rfl⟩ hkey hidentity rfl hanswer rfl hvalid hchecked hused
    (Nat.zero_lt_succ _)

/-- After an attempt that stores an observation and ends before its receipt, the evidence of the
requested columns is accepted. -/
theorem indicator_collection_covers_resumed : ∃ state shards evidence,
    collect sampleDigest "key" (answering []) ⟨"instrument", "code"⟩ sampleDay sampleDay sampleDay 1
      ([(⟨answering [], 0, some ⟨0, [], []⟩⟩ : Interruption ℕ)].foldl
        (interrupted sampleDigest "key" ⟨"instrument", "code"⟩ sampleDay sampleDay sampleDay)
        ⟨fun _ => [], []⟩) = (state, some (.ok (shards, evidence))) ∧
    validateIndicatorCollectionEvidence sampleDigest state.files.raw evidence = .ok () := by
  have hnodup : (financialIndicatorSourceFields.dedup ++ []).Nodup := by
    rw [List.append_nil]
    exact List.nodup_dedup _
  obtain ⟨state, evidence, hcollect⟩ := answering_collected hnodup [⟨0, [], []⟩]
  have htomorrow : sampleDay.tomorrow ≠ none := by decide
  refine ⟨state, _, evidence, hcollect, ?_⟩
  obtain ⟨-, hvalidated, -⟩ := indicator_collection_covers
    (queryRaw sampleDigest "key" (answering [])) "code" ⟨⟨fun _ => [], []⟩, [], 0⟩ sampleDay
    sampleDay sampleDigest "key" ⟨"instrument", "code"⟩ sampleDay ⟨fun _ => [], []⟩
    [⟨answering [], 0, some ⟨0, [], []⟩⟩] (answering [])
  refine (hvalidated 1 state _ evidence hcollect).mpr ⟨by decide, htomorrow, ?_⟩
  intro shard hshard field hfield
  obtain rfl := List.mem_singleton.mp hshard
  dsimp only at hfield
  rw [List.append_nil] at hfield
  exact List.mem_dedup.mp hfield

/-- The evidence of a leaf with another column is stored and rejected. -/
theorem indicator_collection_extra_column :
    ¬ ∀ (environment : Environment ℕ) (files : CheckpointFiles ℕ (Observation ℕ)) fuel state shards
      evidence, collect sampleDigest "key" environment ⟨"instrument", "code"⟩ sampleDay sampleDay
        sampleDay fuel files = (state, some (.ok (shards, evidence))) →
      validateIndicatorCollectionEvidence sampleDigest state.files.raw evidence = .ok () := by
  intro h
  have hextra : "extra" ∉ financialIndicatorSourceFields := by decide
  have hnodup : (financialIndicatorSourceFields.dedup ++ ["extra"]).Nodup := by
    rw [List.nodup_append]
    refine ⟨List.nodup_dedup _, List.nodup_singleton _, fun field hfield extra hmem => ?_⟩
    rw [List.mem_singleton.mp hmem]
    rintro rfl
    exact hextra (List.mem_dedup.mp hfield)
  obtain ⟨state, evidence, hcollect⟩ := answering_collected hnodup []
  have hvalid := h (answering ["extra"]) ⟨fun _ => [], []⟩ 1 state _ evidence hcollect
  obtain ⟨-, -, hfields⟩ := (collected_of_collect hcollect).validated_iff.mp hvalid
  refine hextra (hfields _ (List.mem_singleton_self _) ?_)
  exact List.mem_append_right _ (List.mem_singleton_self _)

end ThesisTrace.IndicatorCollection
