import Mathlib.Data.Finset.Basic
import Mathlib.Tactic.Tauto
import ThesisTrace.DailyTrack.Slots
import ThesisTrace.ResearchRun.Effects

/-!
# The law of tracking slots

Over every history of activations, refreshes, retries, stops, deletions, worker transactions and
changes of the limits, a researcher's live Tracks and the selected ones among them move only as
`SlotMove` allows. The law of the selection is read off the moves.
-/

namespace ThesisTrace.DailyTrack
open Transaction
open ResearchRun (updateRows mem_updateRows map_updateRows)

/-! ### Moves of the slots -/

/-- What one step may do to the live Tracks and the selected ones among them. -/
inductive SlotMove (limit : Option Nat) (live chosen : Finset TrackId) :
    Finset TrackId → Finset TrackId → Prop
  /-- Tracks leave the live set, and the others keep their selection. -/
  | leave {live' : Finset TrackId} : live' ⊆ live → SlotMove limit live chosen live' (chosen ∩ live')
  /-- A new Track takes a free slot. -/
  | enter {id : TrackId} : id ∉ live → ¬atLimit limit chosen.card →
      SlotMove limit live chosen (insert id live) (insert id chosen)
  /-- Live Tracks take free slots. -/
  | extend {desired : Finset TrackId} : ¬overLimit limit chosen.card → chosen ⊆ desired →
      desired ⊆ live → ¬overLimit limit desired.card → SlotMove limit live chosen live desired
  /-- A selection over the limit is cut to the limit. -/
  | shrink {desired : Finset TrackId} : overLimit limit chosen.card → desired ⊆ chosen →
      limit = some desired.card → SlotMove limit live chosen live desired

section Moves

variable {limit : Option Nat} {live chosen live' chosen' : Finset TrackId}

lemma not_overLimit_of_not_atLimit {n : Nat} (h : ¬atLimit limit n) : ¬overLimit limit (n + 1) := by
  rintro ⟨bound, hbound, hlt⟩
  exact h ⟨bound, hbound, by omega⟩

lemma atLimit_of_overLimit {n : Nat} (h : overLimit limit n) : atLimit limit n := by
  obtain ⟨bound, hbound, hlt⟩ := h
  exact ⟨bound, hbound, hlt.le⟩

/-- No move raises the number of selected Tracks above the limit. -/
lemma SlotMove.card_le (h : SlotMove limit live chosen live' chosen')
    (hraise : chosen.card < chosen'.card) : ¬overLimit limit chosen'.card := by
  cases h with
  | leave hsub =>
    have hcard := Finset.card_le_card (Finset.inter_subset_left : chosen ∩ live' ⊆ chosen)
    omega
  | @enter id hnew hfree =>
    rintro ⟨bound, hbound, hlt⟩
    have hcard := Finset.card_insert_le id chosen
    exact not_overLimit_of_not_atLimit hfree ⟨bound, hbound, by omega⟩
  | extend hunder hkeep hlive hfits => exact hfits
  | shrink hover hsub hlimit =>
    have hcard := Finset.card_le_card hsub
    omega

/-- Within the limit no live Track is deselected. -/
lemma SlotMove.keeps (h : SlotMove limit live chosen live' chosen')
    (hunder : ¬overLimit limit chosen.card) {id : TrackId} (hid : id ∈ chosen) (hlive : id ∈ live') :
    id ∈ chosen' := by
  cases h with
  | leave hsub => exact Finset.mem_inter.mpr ⟨hid, hlive⟩
  | enter hnew hfree => exact Finset.mem_insert_of_mem hid
  | extend _ hkeep _ _ => exact hkeep hid
  | shrink hover _ _ => exact absurd hover hunder

end Moves

/-! ### Admission -/

section Admission

variable {live chosen desired : Finset TrackId} {trackId : TrackId} {limit : Option Nat}

/-- A selection with which an action on a live Track is admitted. -/
structure Admitted (live chosen : Finset TrackId) (trackId : TrackId) (limit : Option Nat)
    (desired : Finset TrackId) : Prop where
  mem : trackId ∈ desired
  available : desired ⊆ live
  fits : ¬overLimit limit desired.card
  keeps : ¬overLimit limit chosen.card → chosen ⊆ desired
  shrinks : overLimit limit chosen.card → desired ⊆ chosen ∧ limit = some desired.card

lemma Admitted.slotMove (h : Admitted live chosen trackId limit desired) :
    SlotMove limit live chosen live desired := by
  by_cases hover : overLimit limit chosen.card
  · exact .shrink hover (h.shrinks hover).1 (h.shrinks hover).2
  · exact .extend hover (h.keeps hover) h.available h.fits

lemma explicitSelection_admitted {ids : List TrackId}
    (h : explicitSelection live chosen trackId limit ids = .ok desired) :
    Admitted live chosen trackId limit desired := by
  unfold explicitSelection at h
  simp only [bind_ok_iff, require_ok_iff, not_or, not_not] at h
  obtain ⟨-, ⟨-, havailable, hmem, hfits⟩, h⟩ := h
  by_cases hover : overLimit limit chosen.card
  · simp only [if_pos hover, bind_ok_iff, require_ok_iff, pure_ok_iff] at h
    obtain ⟨-, hshrink, rfl⟩ := h
    exact ⟨hmem, havailable, hfits, fun hunder => absurd hover hunder,
      fun _ => ⟨hshrink.1, hshrink.2.symm⟩⟩
  · simp only [if_neg hover, bind_ok_iff, require_ok_iff, pure_ok_iff] at h
    obtain ⟨-, hkeep, rfl⟩ := h
    exact ⟨hmem, havailable, hfits, fun _ => hkeep, fun h => absurd h hover⟩

lemma desiredSelection_admitted {ids : Option (List TrackId)} {result : Option (Finset TrackId)}
    (hlive : trackId ∈ live) (hsub : chosen ⊆ live)
    (h : desiredSelection live chosen trackId limit ids = .ok result) :
    Admitted live chosen trackId limit (result.getD chosen) := by
  unfold desiredSelection at h
  cases ids with
  | some ids =>
    simp only [bind_ok_iff, pure_ok_iff] at h
    obtain ⟨desired, hdesired, rfl⟩ := h
    exact explicitSelection_admitted hdesired
  | none =>
    by_cases hover : overLimit limit chosen.card
    · simp [hover] at h
    by_cases hmem : trackId ∈ chosen
    · simp only [if_neg hover, if_pos hmem, Except.ok.injEq] at h
      subst h
      exact ⟨hmem, hsub, hover, fun _ => Finset.Subset.refl _, fun h => absurd h hover⟩
    · by_cases hfull : atLimit limit chosen.card
      · simp [hover, hmem, hfull] at h
      simp only [if_neg hover, if_neg hmem, if_neg hfull, Except.ok.injEq] at h
      subst h
      refine ⟨Finset.mem_insert_self _ _, Finset.insert_subset hlive hsub, ?_,
        fun _ => Finset.subset_insert _ _, fun h => absurd h hover⟩
      rw [Option.getD_some, Finset.card_insert_of_notMem hmem]
      exact not_overLimit_of_not_atLimit hfull

end Admission

/-! ### Rows -/

section Rows

variable {tracks tracks' : List Track} {researcherId owner : ResearcherId} {id : TrackId}

lemma mem_available :
    id ∈ available tracks owner ↔ ∃ track ∈ tracks, track.liveOf owner ∧ track.id = id := by
  simp only [available, List.mem_toFinset, List.mem_map, List.mem_filter, and_assoc]

lemma mem_selected :
    id ∈ selected tracks owner ↔
      ∃ track ∈ tracks, track.liveOf owner ∧ track.quotaSelected ∧ track.id = id := by
  simp only [selected, List.mem_toFinset, List.mem_map, List.mem_filter, Bool.and_eq_true,
    and_assoc]

lemma selected_subset_available : selected tracks owner ⊆ available tracks owner := by
  intro id hid
  obtain ⟨track, hmem, hlive, -, hid⟩ := mem_selected.mp hid
  exact mem_available.mpr ⟨track, hmem, hlive, hid⟩

/-- The ids of the rows are distinct, as the primary key has it. -/
def DistinctIds (tracks : List Track) : Prop := (tracks.map Track.id).Nodup

lemma DistinctIds.eq {a b : Track} (h : DistinctIds tracks) (ha : a ∈ tracks) (hb : b ∈ tracks)
    (hid : a.id = b.id) : a = b :=
  List.inj_on_of_nodup_map h ha hb hid

/-- The live rows of `owner` after a step come from such rows with the same selection. -/
def Inherits (owner : ResearcherId) (tracks tracks' : List Track) : Prop :=
  ∀ row' ∈ tracks', row'.liveOf owner →
    ∃ row ∈ tracks, row.liveOf owner ∧ row.id = row'.id ∧ row.quotaSelected = row'.quotaSelected

lemma Inherits.available_subset (h : Inherits owner tracks tracks') :
    available tracks' owner ⊆ available tracks owner := by
  intro id hid
  obtain ⟨row', hmem', hlive', rfl⟩ := mem_available.mp hid
  obtain ⟨row, hmem, hlive, hid, -⟩ := h row' hmem' hlive'
  exact mem_available.mpr ⟨row, hmem, hlive, hid⟩

lemma Inherits.selected_eq (h : Inherits owner tracks tracks') (hdistinct : DistinctIds tracks) :
    selected tracks' owner = selected tracks owner ∩ available tracks' owner := by
  ext id
  rw [Finset.mem_inter]
  constructor
  · intro hid
    refine ⟨?_, selected_subset_available hid⟩
    obtain ⟨row', hmem', hlive', hchosen', rfl⟩ := mem_selected.mp hid
    obtain ⟨row, hmem, hlive, hid, hflag⟩ := h row' hmem' hlive'
    exact mem_selected.mpr ⟨row, hmem, hlive, hflag.trans hchosen', hid⟩
  · rintro ⟨hid, hid'⟩
    obtain ⟨chosen, hchosen, -, hflag, rfl⟩ := mem_selected.mp hid
    obtain ⟨row', hmem', hlive', hrow'⟩ := mem_available.mp hid'
    obtain ⟨row, hmem, -, hrow, hsame⟩ := h row' hmem' hlive'
    obtain rfl := hdistinct.eq hchosen hmem (by rw [hrow, hrow'])
    exact mem_selected.mpr ⟨row', hmem', hlive', hsame.symm.trans hflag, hrow'⟩

lemma Inherits.selected_eq_of_available (h : Inherits owner tracks tracks')
    (hdistinct : DistinctIds tracks) (hlive : available tracks' owner = available tracks owner) :
    selected tracks' owner = selected tracks owner := by
  rw [h.selected_eq hdistinct, hlive]
  exact Finset.inter_eq_left.mpr selected_subset_available

lemma Inherits.refl (owner : ResearcherId) (tracks : List Track) : Inherits owner tracks tracks :=
  fun row hmem hlive => ⟨row, hmem, hlive, rfl, rfl⟩

lemma Inherits.trans {tracks'' : List Track} (h : Inherits owner tracks tracks')
    (h' : Inherits owner tracks' tracks'') : Inherits owner tracks tracks'' := by
  intro row'' hmem'' hlive''
  obtain ⟨row', hmem', hlive', hid', hflag'⟩ := h' row'' hmem'' hlive''
  obtain ⟨row, hmem, hlive, hid, hflag⟩ := h row' hmem' hlive'
  exact ⟨row, hmem, hlive, hid.trans hid', hflag.trans hflag'⟩

lemma Inherits.slotMove {limit : Option Nat} (h : Inherits owner tracks tracks')
    (hdistinct : DistinctIds tracks) :
    SlotMove limit (available tracks owner) (selected tracks owner) (available tracks' owner)
      (selected tracks' owner) := by
  rw [h.selected_eq hdistinct]
  exact .leave h.available_subset

/-- A change of rows that keeps what the selection reads. -/
structure KeepsSelection (change : Track → Track) : Prop where
  id : ∀ row, (change row).id = row.id
  researcherId : ∀ row, (change row).researcherId = row.researcherId
  quotaSelected : ∀ row, (change row).quotaSelected = row.quotaSelected

lemma mem_updateTrack {trackId : TrackId} {change : Track → Track} {row' : Track} :
    row' ∈ updateTrack tracks trackId change ↔
      ∃ row ∈ tracks, (if row.id = trackId then change row else row) = row' := by
  simp [updateTrack]

lemma distinctIds_updateRows {which : Track → Bool} {change : Track → Track}
    (hchange : ∀ row, (change row).id = row.id) (h : DistinctIds tracks) :
    DistinctIds (updateRows tracks which change) := by
  unfold DistinctIds
  rw [map_updateRows Track.id tracks which change hchange]
  exact h

lemma inherits_updateTrack {trackId : TrackId} {change : Track → Track}
    (hchange : KeepsSelection change)
    (hlive : ∀ row ∈ tracks, row.id = trackId → (change row).status.isLive →
      row.status.isLive) : Inherits owner tracks (updateTrack tracks trackId change) := by
  intro row' hmem' hlive'
  obtain ⟨row, hmem, rfl⟩ := mem_updateTrack.mp hmem'
  by_cases hid : row.id = trackId
  · rw [if_pos hid] at hlive' ⊢
    simp only [Track.liveOf, hchange.researcherId, Bool.and_eq_true] at hlive'
    refine ⟨row, hmem, ?_, (hchange.id row).symm, (hchange.quotaSelected row).symm⟩
    simp only [Track.liveOf, Bool.and_eq_true]
    exact ⟨hlive'.1, hlive row hmem hid hlive'.2⟩
  · rw [if_neg hid] at hlive' ⊢
    exact ⟨row, hmem, hlive', rfl, rfl⟩

/-- A change that leaves the Track live changes no selection. -/
lemma available_updateTrack {trackId : TrackId} {change : Track → Track}
    (hchange : KeepsSelection change)
    (hlive : ∀ row ∈ tracks, row.id = trackId → (change row).status.isLive = row.status.isLive) :
    available (updateTrack tracks trackId change) owner = available tracks owner := by
  refine (inherits_updateTrack hchange fun row hmem hid h =>
    (hlive row hmem hid).symm.trans h).available_subset.antisymm fun id hid => ?_
  obtain ⟨row, hmem, hrow, rfl⟩ := mem_available.mp hid
  refine mem_available.mpr ⟨_, mem_updateTrack.mpr ⟨row, hmem, rfl⟩, ?_⟩
  split
  · next htrack =>
    simp only [Track.liveOf, hchange.researcherId, hlive row hmem htrack]
    exact ⟨hrow, hchange.id row⟩
  · exact ⟨hrow, rfl⟩

end Rows

/-! ### Setting the selection -/

section SetSelection

variable {tracks : List Track} {researcherId owner : ResearcherId} {desired : Finset TrackId}

lemma mem_setSelection {row' : Track} :
    row' ∈ setSelection tracks researcherId desired ↔
      ∃ row ∈ tracks, (if row.liveOf researcherId then
        { row with quotaSelected := decide (row.id ∈ desired) } else row) = row' := by
  exact mem_updateRows

lemma distinctIds_setSelection (h : DistinctIds tracks) :
    DistinctIds (setSelection tracks researcherId desired) :=
  distinctIds_updateRows (fun _ => rfl) h

lemma available_setSelection :
    available (setSelection tracks researcherId desired) owner = available tracks owner := by
  ext id
  simp only [mem_available, mem_setSelection]
  constructor
  · rintro ⟨_, ⟨row, hmem, rfl⟩, hlive, hid⟩
    refine ⟨row, hmem, ?_⟩
    split at hlive <;> simp_all [Track.liveOf]
  · rintro ⟨row, hmem, hlive, rfl⟩
    refine ⟨_, ⟨row, hmem, rfl⟩, ?_⟩
    split <;> simp_all [Track.liveOf]

lemma selected_setSelection (hsub : desired ⊆ available tracks researcherId) :
    selected (setSelection tracks researcherId desired) researcherId = desired := by
  ext id
  simp only [mem_selected, mem_setSelection]
  constructor
  · rintro ⟨_, ⟨row, hmem, rfl⟩, hlive, hflag, rfl⟩
    by_cases hrow : row.liveOf researcherId
    · simpa [hrow] using hflag
    · simp [hrow] at hlive
  · intro hid
    obtain ⟨row, hmem, hlive, rfl⟩ := mem_available.mp (hsub hid)
    refine ⟨_, ⟨row, hmem, rfl⟩, ?_⟩
    simp only [hlive, if_true]
    exact ⟨hlive, decide_eq_true hid, trivial⟩

/-- The rows of the other researchers stay. -/
lemma inherits_setSelection (hne : owner ≠ researcherId) :
    Inherits owner tracks (setSelection tracks researcherId desired) := by
  intro row' hmem' hlive'
  obtain ⟨row, hmem, rfl⟩ := mem_setSelection.mp hmem'
  by_cases hrow : row.liveOf researcherId
  · simp only [Track.liveOf, Bool.and_eq_true, decide_eq_true_eq] at hrow
    simp only [Track.liveOf, hrow, Bool.and_eq_true, decide_eq_true_eq, if_true,
      and_self, decide_true] at hlive'
    exact absurd hlive'.1.symm hne
  · rw [if_neg hrow] at hlive' ⊢
    exact ⟨row, hmem, hlive', rfl, rfl⟩

end SetSelection

/-! ### Commands on a live Track -/

section Commands

variable {s t : Tables} {tracks : List Track} {researcherId owner : ResearcherId}
  {trackId : TrackId} {reply : Reply}

lemma track_mem {track : Track} (h : s.track researcherId trackId = some track) :
    track ∈ s.tracks ∧ track.researcherId = researcherId ∧ track.id = trackId := by
  refine ⟨List.mem_of_find?_eq_some h, ?_⟩
  simpa using List.find?_some h

lemma track_live {track : Track} (h : s.track researcherId trackId = some track)
    (hlive : track.status.isLive) : trackId ∈ available s.tracks researcherId := by
  obtain ⟨hmem, howner, hid⟩ := track_mem h
  exact mem_available.mpr ⟨track, hmem, by simp [Track.liveOf, howner, hlive], hid⟩

lemma track_ne_none (h : trackId ∈ available s.tracks researcherId) :
    s.track researcherId trackId ≠ none := by
  obtain ⟨row, hmem, hlive, hid⟩ := mem_available.mp h
  intro hnone
  have hrow := List.find?_eq_none.mp hnone row hmem
  simp only [Track.liveOf, Bool.and_eq_true, decide_eq_true_eq] at hlive
  simp [hlive.1, hid] at hrow

/-- What the lifecycle part of an admitted command does: it finds no Track, or it keeps the
selection of the live Track that it schedules. -/
def Schedules (s : Tables) (researcherId : ResearcherId) (trackId : TrackId) (t : Tables)
    (reply : Reply) : Prop :=
  (s.track researcherId trackId = none ∧ t = s ∧ ∀ status, reply ≠ .done status) ∨
    ((∃ status, reply = .done status) ∧ trackId ∈ available s.tracks researcherId ∧
      DistinctIds t.tracks ∧ ∀ owner, Inherits owner s.tracks t.tracks ∧
        available t.tracks owner = available s.tracks owner)

lemma schedules_updateTrack (change : Track → Track) {track : Track} {status : TrackStatus}
    (hdistinct : DistinctIds s.tracks) (htrack : s.track researcherId trackId = some track)
    (hlive : track.status.isLive) (hlive' : (change track).status.isLive)
    (hchange : KeepsSelection change) (ht : t.tracks = updateTrack s.tracks trackId change) :
    Schedules s researcherId trackId t (.done status) := by
  obtain ⟨hmem, howner, hid⟩ := track_mem htrack
  have hkeep : ∀ row ∈ s.tracks, row.id = trackId →
      (change row).status.isLive = row.status.isLive := by
    intro row hrow hrowId
    rw [hdistinct.eq hrow hmem (hrowId.trans hid.symm), hlive, hlive']
  refine .inr ⟨⟨_, rfl⟩, track_live htrack hlive, ?_, fun owner => ⟨?_, ?_⟩⟩
  · rw [ht]
    exact distinctIds_updateRows hchange.id hdistinct
  · rw [ht]
    exact inherits_updateTrack hchange fun row hmem hid h => (hkeep row hmem hid).symm.trans h
  · rw [ht]
    exact available_updateTrack hchange hkeep

lemma queueRefresh_schedules {requestId : String} (hdistinct : DistinctIds s.tracks)
    (h : queueRefresh s researcherId trackId requestId = .ok (t, reply)) :
    Schedules s researcherId trackId t reply := by
  unfold queueRefresh at h
  split at h
  · next hnone =>
    cases h
    exact .inl ⟨hnone, rfl, nofun⟩
  · next track htrack =>
    simp only [bind_ok_iff, require_ok_iff, pure_ok_iff, Prod.mk.injEq] at h
    obtain ⟨-, hactive, -, -, -, -, head, -, -, -, rfl, rfl⟩ := h
    have hlive : track.status.isLive := by simp [TrackStatus.isLive, hactive]
    exact schedules_updateTrack (Track.queue s.workQueueSequence) hdistinct htrack hlive hlive
      ⟨fun _ => rfl, fun _ => rfl, fun _ => rfl⟩ rfl

lemma resumeBlocked_schedules {requestId : String} {targetFits : Except Refusal Bool}
    (hdistinct : DistinctIds s.tracks)
    (h : resumeBlocked s researcherId trackId requestId targetFits = .ok (t, reply)) :
    Schedules s researcherId trackId t reply := by
  unfold resumeBlocked at h
  split at h
  · next hnone =>
    cases h
    exact .inl ⟨hnone, rfl, nofun⟩
  · next track htrack =>
    simp only [bind_ok_iff, require_ok_iff, found_ok_iff, pure_ok_iff, Prod.mk.injEq] at h
    obtain ⟨-, hblocked, progression, -, -, -, fits, -, rfl, rfl⟩ := h
    have hlive : track.status.isLive := by simp [TrackStatus.isLive, hblocked]
    cases fits with
    | true =>
      exact schedules_updateTrack (Track.resume progression.id s.workQueueSequence) hdistinct
        htrack hlive rfl ⟨fun _ => rfl, fun _ => rfl, fun _ => rfl⟩ rfl
    | false =>
      exact .inr ⟨⟨_, rfl⟩, track_live htrack hlive, hdistinct, fun owner => ⟨.refl _ _, rfl⟩⟩

/-- An admitted action changes at most the selection of its researcher. -/
lemma admitTrackingAction_ok {limit : Option Nat} {ids : Option (List TrackId)}
    (h : admitTrackingAction s.tracks researcherId trackId limit ids = .ok tracks) :
    (trackId ∉ available s.tracks researcherId ∧ tracks = s.tracks) ∨
    (Admitted (available s.tracks researcherId) (selected s.tracks researcherId) trackId limit
        (selected tracks researcherId) ∧
      (DistinctIds s.tracks → DistinctIds tracks) ∧
      (∀ owner, available tracks owner = available s.tracks owner) ∧
      ∀ owner ≠ researcherId, Inherits owner s.tracks tracks) := by
  unfold admitTrackingAction at h
  by_cases hid : trackId ∈ available s.tracks researcherId
  · simp only [hid, not_true_eq_false, if_false, bind_ok_iff, pure_ok_iff] at h
    obtain ⟨result, hresult, rfl⟩ := h
    have hadmitted := desiredSelection_admitted hid selected_subset_available hresult
    refine .inr ?_
    cases result with
    | none =>
      exact ⟨hadmitted, fun h => h, fun _ => rfl, fun owner _ => .refl _ _⟩
    | some desired =>
      have hset := selected_setSelection hadmitted.available
      rw [Option.getD_some] at hset hadmitted
      dsimp only
      rw [hset]
      exact ⟨hadmitted, distinctIds_setSelection, fun _ => available_setSelection,
        fun owner hne => inherits_setSelection hne⟩
  · simp only [hid, not_false_eq_true, if_true, Except.ok.injEq] at h
    exact .inl ⟨hid, h.symm⟩

end Commands

/-! ### One step -/

/-- The Track that an action asks to be admitted, with its researcher. -/
def Action.admission : Action → Option (ResearcherId × TrackId)
  | .activate researcherId trackId _ _ => some (researcherId, trackId)
  | .refresh researcherId trackId _ => some (researcherId, trackId)
  | .retry researcherId trackId _ _ => some (researcherId, trackId)
  | _ => none

/-- The limit that the quota policy of the researcher sets. -/
def Tables.limit (s : Tables) (researcherId : ResearcherId) : Option Nat :=
  (s.quotaPolicy researcherId).bind QuotaPolicy.activeDailyTrackLimit

/-- How an admission of `trackId` changes the live Tracks of its researcher and their selection. -/
def AdmissionEffect (limit : Option Nat) (live chosen : Finset TrackId) (trackId : TrackId)
    (live' chosen' : Finset TrackId) : Prop :=
  (trackId ∉ live ∧ ¬atLimit limit chosen.card ∧ live' = insert trackId live ∧
      chosen' = insert trackId chosen) ∨
    (live' = live ∧ Admitted live chosen trackId limit chosen')

lemma AdmissionEffect.slotMove {limit : Option Nat} {live chosen live' chosen' : Finset TrackId}
    {trackId : TrackId} (h : AdmissionEffect limit live chosen trackId live' chosen') :
    SlotMove limit live chosen live' chosen' := by
  obtain ⟨hnew, hfree, rfl, rfl⟩ | ⟨rfl, hadmitted⟩ := h
  · exact .enter hnew hfree
  · exact hadmitted.slotMove

lemma AdmissionEffect.admitted {limit : Option Nat} {live chosen live' chosen' : Finset TrackId}
    {trackId : TrackId} (h : AdmissionEffect limit live chosen trackId live' chosen') :
    trackId ∈ live' ∧ trackId ∈ chosen' ∧ ¬overLimit limit chosen'.card := by
  obtain ⟨-, hfree, rfl, rfl⟩ | ⟨rfl, hadmitted⟩ := h
  · refine ⟨Finset.mem_insert_self _ _, Finset.mem_insert_self _ _, ?_⟩
    rintro ⟨bound, hbound, hlt⟩
    have hcard := Finset.card_insert_le trackId chosen
    exact not_overLimit_of_not_atLimit hfree ⟨bound, hbound, by omega⟩
  · exact ⟨hadmitted.available hadmitted.mem, hadmitted.mem, hadmitted.fits⟩

lemma AdmissionEffect.shrinks {limit : Option Nat} {live chosen live' chosen' : Finset TrackId}
    {trackId : TrackId} (h : AdmissionEffect limit live chosen trackId live' chosen')
    (hover : overLimit limit chosen.card) : chosen' ⊆ chosen ∧ limit = some chosen'.card := by
  obtain ⟨-, hfree, -, -⟩ | ⟨-, hadmitted⟩ := h
  · exact absurd (atLimit_of_overLimit hover) hfree
  · exact hadmitted.shrinks hover

/-- What a committed transaction does to the rows. -/
structure StepEffect (s : Tables) (admission : Option (ResearcherId × TrackId)) (t : Tables)
    (reply : Reply) : Prop where
  distinct : DistinctIds t.tracks
  inherits : ∀ owner,
    (∀ trackId status, admission = some (owner, trackId) → reply ≠ .done status) →
      Inherits owner s.tracks t.tracks
  admits : ∀ owner trackId status, admission = some (owner, trackId) → reply = .done status →
    AdmissionEffect (s.limit owner) (available s.tracks owner) (selected s.tracks owner) trackId
      (available t.tracks owner) (selected t.tracks owner)

section Step

variable {s t : Tables} {tracks : List Track} {researcherId : ResearcherId} {trackId : TrackId}
  {reply : Reply}

/-- A transaction that admits nothing. -/
lemma stepEffect_of_inherits (admission : Option (ResearcherId × TrackId))
    (hdistinct : DistinctIds t.tracks) (h : ∀ owner, Inherits owner s.tracks t.tracks)
    (hreply : ∀ request status, admission = some request → reply ≠ .done status) :
    StepEffect s admission t reply where
  distinct := hdistinct
  inherits owner _ := h owner
  admits _ _ status hadmission hdone := absurd hdone (hreply _ status hadmission)

lemma stepEffect_unchanged (admission : Option (ResearcherId × TrackId))
    (hdistinct : DistinctIds s.tracks) (hreply : ∀ status, reply ≠ .done status) :
    StepEffect s admission s reply :=
  stepEffect_of_inherits admission hdistinct (fun owner => .refl owner _) fun _ status _ =>
    hreply status

lemma stepEffect_command {policy : QuotaPolicy} {ids : Option (List TrackId)}
    (hdistinct : DistinctIds s.tracks) (hpolicy : s.quotaPolicy researcherId = some policy)
    (hallowed : admitTrackingAction s.tracks researcherId trackId policy.activeDailyTrackLimit ids =
      .ok tracks)
    (hschedules : Schedules { s with tracks := tracks } researcherId trackId t reply) :
    StepEffect s (some (researcherId, trackId)) t reply := by
  have hlimit : s.limit researcherId = policy.activeDailyTrackLimit := by
    simp [Tables.limit, hpolicy]
  obtain ⟨hnot, rfl⟩ | ⟨hadmitted, hkeep, hlive, hothers⟩ := admitTrackingAction_ok hallowed
  · obtain ⟨-, rfl, hreply⟩ | ⟨-, hmem, -⟩ := hschedules
    · exact stepEffect_unchanged _ hdistinct hreply
    · exact absurd hmem hnot
  · have hmem : trackId ∈ available tracks researcherId := by
      rw [hlive]
      exact hadmitted.available hadmitted.mem
    obtain ⟨hnone, -, -⟩ | ⟨⟨status, rfl⟩, -, hdistinct', hrows⟩ := hschedules
    · exact absurd hnone (track_ne_none hmem)
    · have hchosen := (hrows researcherId).1.selected_eq_of_available (hkeep hdistinct)
        (hrows researcherId).2
      have hadmission : AdmissionEffect (s.limit researcherId) (available s.tracks researcherId)
          (selected s.tracks researcherId) trackId (available t.tracks researcherId)
          (selected t.tracks researcherId) := by
        rw [hchosen, hlimit]
        exact .inr ⟨(hrows researcherId).2.trans (hlive researcherId), hadmitted⟩
      exact {
        distinct := hdistinct'
        inherits := fun owner hnot => by
          by_cases howner : owner = researcherId
          · subst howner
            exact absurd rfl (hnot trackId status rfl)
          · exact (hothers owner howner).trans (hrows owner).1
        admits := by
          rintro owner id status ⟨⟩ -
          exact hadmission }

lemma refresh_effect {command : Command} (hdistinct : DistinctIds s.tracks)
    (h : refresh s researcherId trackId command = .ok (t, reply)) :
    StepEffect s (some (researcherId, trackId)) t reply := by
  unfold refresh at h
  simp only [bind_ok_iff, require_ok_iff] at h
  obtain ⟨-, -, h⟩ := h
  split at h
  · cases h
    exact stepEffect_unchanged _ hdistinct (by simp)
  split at h
  · simp only [bind_ok_iff, require_ok_iff, pure_ok_iff, Prod.mk.injEq] at h
    obtain ⟨-, -, rfl, rfl⟩ := h
    exact stepEffect_unchanged _ hdistinct (by simp)
  · simp only [bind_ok_iff, found_ok_iff] at h
    obtain ⟨policy, hpolicy, tracks, hallowed, hqueue⟩ := h
    have hdistinct' : DistinctIds tracks := by
      obtain ⟨-, rfl⟩ | ⟨-, hkeep, -, -⟩ := admitTrackingAction_ok hallowed
      · exact hdistinct
      · exact hkeep hdistinct
    exact stepEffect_command hdistinct hpolicy hallowed (queueRefresh_schedules hdistinct' hqueue)

lemma retry_effect {command : Command} {targetFits : Except Refusal Bool}
    (hdistinct : DistinctIds s.tracks)
    (h : retry s researcherId trackId command targetFits = .ok (t, reply)) :
    StepEffect s (some (researcherId, trackId)) t reply := by
  unfold retry at h
  simp only [bind_ok_iff, require_ok_iff] at h
  obtain ⟨-, -, h⟩ := h
  split at h
  · cases h
    exact stepEffect_unchanged _ hdistinct (by simp)
  split at h
  · simp only [bind_ok_iff, require_ok_iff, pure_ok_iff, Prod.mk.injEq] at h
    obtain ⟨-, -, rfl, rfl⟩ := h
    exact stepEffect_unchanged _ hdistinct (by simp)
  · simp only [bind_ok_iff, found_ok_iff] at h
    obtain ⟨policy, hpolicy, tracks, hallowed, hresume⟩ := h
    have hdistinct' : DistinctIds tracks := by
      obtain ⟨-, rfl⟩ | ⟨-, hkeep, -, -⟩ := admitTrackingAction_ok hallowed
      · exact hdistinct
      · exact hkeep hdistinct
    exact stepEffect_command hdistinct hpolicy hallowed (resumeBlocked_schedules hdistinct' hresume)

/-- The rows that the capacity query counts are the selected Tracks. -/
lemma capacity_eq (hdistinct : DistinctIds s.tracks) :
    (s.tracks.filter fun track => track.liveOf researcherId && track.quotaSelected).length =
      (selected s.tracks researcherId).card := by
  have hnodup := (List.filter_sublist (p := fun track : Track =>
    track.liveOf researcherId && track.quotaSelected) (l := s.tracks)).map Track.id
  rw [selected, List.toFinset_card_of_nodup (hdistinct.sublist hnodup), List.length_map]

lemma activate_effect {seedRunId : RunId} {boundary : Session} (hdistinct : DistinctIds s.tracks)
    (h : activate s researcherId trackId seedRunId boundary = .ok (t, reply)) :
    StepEffect s (some (researcherId, trackId)) t reply := by
  unfold activate at h
  simp only [bind_ok_iff, require_ok_iff, found_ok_iff, pure_ok_iff, Prod.mk.injEq] at h
  obtain ⟨-, -, policy, hpolicy, -, hfree, -, hunique, rfl, rfl⟩ := h
  have hlimit : s.limit researcherId = policy.activeDailyTrackLimit := by
    simp [Tables.limit, hpolicy]
  have hnew : ∀ row ∈ s.tracks, row.id ≠ trackId := fun row hmem hid =>
    hunique ⟨row, hmem, .inl hid⟩
  have hlive : ∀ owner, (newTrack trackId researcherId seedRunId boundary).liveOf owner ↔
      researcherId = owner := fun owner => by
    rw [show (newTrack trackId researcherId seedRunId boundary).liveOf owner =
      decide (researcherId = owner) from Bool.and_true _, decide_eq_true_eq]
  exact {
    distinct := by
      unfold DistinctIds
      rw [List.map_append, List.nodup_append]
      refine ⟨hdistinct, List.nodup_singleton _, ?_⟩
      intro id hid id' hid'
      obtain ⟨row, hmem, rfl⟩ := List.mem_map.mp hid
      rw [List.map_singleton, List.mem_singleton] at hid'
      rw [hid']
      exact hnew row hmem
    inherits := fun owner hnot row' hmem' hlive' => by
      rcases List.mem_append.mp hmem' with hmem | hmem
      · exact ⟨row', hmem, hlive', rfl, rfl⟩
      · rw [List.mem_singleton] at hmem
        subst hmem
        obtain rfl := (hlive owner).mp hlive'
        exact absurd rfl (hnot trackId _ rfl)
    admits := by
      rintro owner id status ⟨⟩ -
      refine .inl ⟨?_, ?_, ?_, ?_⟩
      · intro hid
        obtain ⟨row, hmem, -, hrow⟩ := mem_available.mp hid
        exact hnew row hmem hrow
      · rw [hlimit, ← capacity_eq hdistinct]
        exact hfree
      · ext id
        simp only [mem_available, List.mem_append, List.mem_singleton, Finset.mem_insert,
          or_and_right, exists_or, exists_eq_left, hlive, true_and]
        rw [or_comm, show (newTrack trackId researcherId seedRunId boundary).id = trackId from rfl,
          eq_comm]
      · ext id
        simp only [mem_selected, List.mem_append, List.mem_singleton, Finset.mem_insert,
          or_and_right, exists_or, exists_eq_left, hlive, true_and]
        rw [or_comm, show (newTrack trackId researcherId seedRunId boundary).id = trackId from rfl,
          show (newTrack trackId researcherId seedRunId boundary).quotaSelected = true from rfl,
          eq_self_iff_true, true_and, eq_comm] }

/-- A change that makes no Track live admits nothing. -/
lemma stepEffect_updateTrack (change : Track → Track) {track : Track}
    (hdistinct : DistinctIds s.tracks) (hmem : track ∈ s.tracks) (hid : track.id = trackId)
    (hchange : KeepsSelection change)
    (hlive : (change track).status.isLive → track.status.isLive)
    (ht : t.tracks = updateTrack s.tracks trackId change) : StepEffect s none t reply := by
  refine stepEffect_of_inherits none ?_ (fun owner => ?_) nofun
  · rw [ht]
    exact distinctIds_updateRows hchange.id hdistinct
  · rw [ht]
    refine inherits_updateTrack hchange fun row hrow hrowId => ?_
    rw [hdistinct.eq hrow hmem (hrowId.trans hid.symm)]
    exact hlive

lemma stop_effect {requestId : String} (hdistinct : DistinctIds s.tracks)
    (h : stop s researcherId trackId requestId = .ok (t, reply)) : StepEffect s none t reply := by
  unfold stop at h
  simp only [bind_ok_iff, require_ok_iff] at h
  obtain ⟨-, -, h⟩ := h
  split at h
  · cases h
    exact stepEffect_unchanged _ hdistinct (by simp)
  next track htrack =>
  obtain ⟨hmem, -, hid⟩ := track_mem htrack
  split at h
  · simp only [bind_ok_iff, require_ok_iff, pure_ok_iff, Prod.mk.injEq] at h
    obtain ⟨-, -, rfl, rfl⟩ := h
    exact stepEffect_unchanged _ hdistinct (by simp)
  simp only [bind_ok_iff, require_ok_iff] at h
  obtain ⟨-, hstatus, h⟩ := h
  split at h
  · cases h
    exact stepEffect_updateTrack Track.stopNow hdistinct hmem hid
      ⟨fun _ => rfl, fun _ => rfl, fun _ => rfl⟩ (fun hlive => by cases hlive) rfl
  · next attempt _ =>
    simp only [bind_ok_iff, require_ok_iff, pure_ok_iff, Prod.mk.injEq] at h
    obtain ⟨-, -, -, hactive, rfl, rfl⟩ := h
    exact stepEffect_updateTrack (Track.stopAttempt attempt) hdistinct hmem hid
      ⟨fun _ => rfl, fun _ => rfl, fun _ => rfl⟩
      (fun _ => by rw [hactive]; rfl) rfl

lemma delete_effect (hdistinct : DistinctIds s.tracks)
    (h : delete s researcherId trackId = .ok (t, reply)) : StepEffect s none t reply := by
  unfold delete at h
  split at h
  · cases h
    exact stepEffect_unchanged _ hdistinct (by simp)
  · simp only [bind_ok_iff, require_ok_iff, pure_ok_iff, Prod.mk.injEq] at h
    obtain ⟨-, -, rfl, rfl⟩ := h
    refine stepEffect_of_inherits none (hdistinct.sublist (List.filter_sublist.map _))
      (fun owner row hmem hlive => ?_) (by simp)
    exact ⟨row, (List.mem_filter.mp hmem).1, hlive, rfl, rfl⟩

lemma workerMoves_live {before after : TrackStatus} (h : workerMoves before after)
    (hlive : after.isLive) : before.isLive := by
  obtain rfl | ⟨rfl, rfl⟩ | ⟨rfl, rfl⟩ := h
  · exact hlive
  · rfl
  · rfl

lemma work_effect {status : TrackStatus} {progress : Progress} (hdistinct : DistinctIds s.tracks)
    (h : work s trackId status progress = .ok (t, reply)) : StepEffect s none t reply := by
  unfold work at h
  simp only [bind_ok_iff, found_ok_iff, require_ok_iff, pure_ok_iff, Prod.mk.injEq] at h
  obtain ⟨track, htrack, -, hmoves, rfl, rfl⟩ := h
  have hid : track.id = trackId := by simpa using List.find?_some htrack
  exact stepEffect_updateTrack (fun row => { row with status := status, progress := progress })
    hdistinct (List.mem_of_find?_eq_some htrack) hid ⟨fun _ => rfl, fun _ => rfl, fun _ => rfl⟩
    (workerMoves_live hmoves) rfl

lemma perform_effect {action : Action} (hdistinct : DistinctIds s.tracks)
    (h : perform s action = .ok (t, reply)) : StepEffect s action.admission t reply := by
  cases action with
  | activate => exact activate_effect hdistinct h
  | refresh => exact refresh_effect hdistinct h
  | retry => exact retry_effect hdistinct h
  | stop => exact stop_effect hdistinct h
  | delete => exact delete_effect hdistinct h
  | work => exact work_effect hdistinct h
  | publishHead =>
    cases h
    exact stepEffect_of_inherits none hdistinct (fun owner => .refl owner _) nofun
  | setQuotaPolicy =>
    cases h
    exact stepEffect_of_inherits none hdistinct (fun owner => .refl owner _) nofun

end Step

/-! ### Histories -/

lemma distinctIds_next {s : Tables} (h : DistinctIds s.tracks) (action : Action) :
    DistinctIds (s.next action).tracks := by
  unfold Tables.next
  split
  · next t reply hperform => exact (perform_effect h hperform).distinct
  · exact h

lemma distinctIds_history (actions : List Action) : DistinctIds (history actions).tracks := by
  have hrun : ∀ s : Tables, DistinctIds s.tracks →
      DistinctIds (actions.foldl Tables.next s).tracks := by
    induction actions with
    | nil => exact fun _ h => h
    | cons action actions ih => exact fun s h => ih _ (distinctIds_next h action)
  exact hrun Tables.empty List.nodup_nil

/-- The action is an admission on a Track of the researcher, and it is admitted. -/
def Admits (s : Tables) (action : Action) (researcherId : ResearcherId) (trackId : TrackId) :
    Prop :=
  action.admission = some (researcherId, trackId) ∧
    ∃ status, perform s action = .ok (s.next action, .done status)

/-- The law of one researcher's selection for one action on the tables. -/
structure SelectionLaw (s : Tables) (action : Action) (researcherId : ResearcherId) : Prop where
  /-- An admitted Track is live and selected afterwards, within the limit. -/
  admitted : ∀ trackId, Admits s action researcherId trackId →
    trackId ∈ available (s.next action).tracks researcherId ∧
      trackId ∈ selected (s.next action).tracks researcherId ∧
      ¬overLimit (s.limit researcherId) (selected (s.next action).tracks researcherId).card
  /-- An action that is refused changes nothing. -/
  refused : ∀ refusal, perform s action = .error refusal → s.next action = s
  /-- An action that is not an admitted one changes no selection of a live Track. -/
  others : (∀ trackId, ¬Admits s action researcherId trackId) →
    selected (s.next action).tracks researcherId =
      selected s.tracks researcherId ∩ available (s.next action).tracks researcherId
  /-- The number of selected Tracks never rises above the limit. -/
  raised : (selected s.tracks researcherId).card <
      (selected (s.next action).tracks researcherId).card →
    ¬overLimit (s.limit researcherId) (selected (s.next action).tracks researcherId).card
  /-- Within the limit no live Track is deselected. -/
  kept : ¬overLimit (s.limit researcherId) (selected s.tracks researcherId).card →
    ∀ trackId ∈ selected s.tracks researcherId,
      trackId ∈ available (s.next action).tracks researcherId →
        trackId ∈ selected (s.next action).tracks researcherId
  /-- Over the limit an admitted action cuts the selection to exactly the limit. -/
  shrinks : overLimit (s.limit researcherId) (selected s.tracks researcherId).card →
    ∀ trackId, Admits s action researcherId trackId →
      selected (s.next action).tracks researcherId ⊆ selected s.tracks researcherId ∧
        s.limit researcherId = some (selected (s.next action).tracks researcherId).card

section Law

variable {s : Tables} {action : Action} {researcherId : ResearcherId}

/-- A step is an admission of the researcher, or the live rows after it are inherited. -/
lemma next_cases (action : Action) (researcherId : ResearcherId)
    (hdistinct : DistinctIds s.tracks) :
    (∃ trackId, Admits s action researcherId trackId ∧
      AdmissionEffect (s.limit researcherId) (available s.tracks researcherId)
        (selected s.tracks researcherId) trackId
        (available (s.next action).tracks researcherId)
        (selected (s.next action).tracks researcherId)) ∨
    (∀ trackId, ¬Admits s action researcherId trackId) ∧
      Inherits researcherId s.tracks (s.next action).tracks := by
  unfold Admits Tables.next
  cases h : perform s action with
  | error refusal => exact .inr ⟨fun trackId hadmits => (nomatch hadmits.2), .refl _ _⟩
  | ok result =>
    obtain ⟨t, reply⟩ := result
    have heffect := perform_effect hdistinct h
    by_cases hadmits : ∃ trackId status,
        action.admission = some (researcherId, trackId) ∧ reply = .done status
    · obtain ⟨trackId, status, hadmission, rfl⟩ := hadmits
      exact .inl ⟨trackId, ⟨hadmission, status, rfl⟩, heffect.admits _ _ _ hadmission rfl⟩
    · refine .inr ⟨?_, ?_⟩
      · rintro trackId ⟨hadmission, status, hreply⟩
        cases hreply
        exact hadmits ⟨trackId, status, hadmission, rfl⟩
      · exact heffect.inherits _ fun trackId status hadmission hreply =>
          hadmits ⟨trackId, status, hadmission, hreply⟩

/-- Every step moves the slots of a researcher. -/
theorem slotMove_next (hdistinct : DistinctIds s.tracks) (action : Action)
    (researcherId : ResearcherId) :
    SlotMove (s.limit researcherId) (available s.tracks researcherId)
      (selected s.tracks researcherId) (available (s.next action).tracks researcherId)
      (selected (s.next action).tracks researcherId) := by
  obtain ⟨trackId, -, heffect⟩ | ⟨-, hinherits⟩ := next_cases action researcherId hdistinct
  · exact heffect.slotMove
  · exact hinherits.slotMove hdistinct

lemma Admits.eq {trackId trackId' : TrackId} (h : Admits s action researcherId trackId)
    (h' : Admits s action researcherId trackId') : trackId' = trackId := by
  have heq := h.1.symm.trans h'.1
  simp only [Option.some.injEq, Prod.mk.injEq, true_and] at heq
  exact heq.symm

lemma Admits.effect {trackId : TrackId} (hdistinct : DistinctIds s.tracks)
    (h : Admits s action researcherId trackId) :
    AdmissionEffect (s.limit researcherId) (available s.tracks researcherId)
      (selected s.tracks researcherId) trackId (available (s.next action).tracks researcherId)
      (selected (s.next action).tracks researcherId) := by
  obtain ⟨trackId', hadmits, heffect⟩ | ⟨hnot, -⟩ := next_cases action researcherId hdistinct
  · rw [hadmits.eq h]
    exact heffect
  · exact absurd h (hnot trackId)

/-- The slots keep their law over every history. -/
theorem selection_law (actions : List Action) (action : Action) (researcherId : ResearcherId) :
    SelectionLaw (history actions) action researcherId := by
  have hdistinct := distinctIds_history actions
  have hmove := slotMove_next hdistinct action researcherId
  exact {
    admitted := fun trackId hadmits => (hadmits.effect hdistinct).admitted
    refused := fun refusal h => by
      unfold Tables.next
      rw [h]
    others := fun hnot => by
      obtain ⟨trackId, hadmits, -⟩ | ⟨-, hinherits⟩ := next_cases action researcherId hdistinct
      · exact absurd hadmits (hnot trackId)
      · exact hinherits.selected_eq hdistinct
    raised := hmove.card_le
    kept := fun hunder trackId hid hlive => hmove.keeps hunder hid hlive
    shrinks := fun hover trackId hadmits => (hadmits.effect hdistinct).shrinks hover }

/-- A lowered limit is met by the next Refresh, which names the Tracks to keep. -/
example : selected (history [.setQuotaPolicy 0 (some ⟨some 2⟩), .activate 0 7 70 1,
    .activate 0 8 80 1, .setQuotaPolicy 0 (some ⟨some 1⟩), .publishHead 5,
    .refresh 0 8 ⟨"request", none⟩, .refresh 0 8 ⟨"request", some [8]⟩]).tracks 0 = {8} := by
  decide

end Law

end ThesisTrace.DailyTrack
