import ThesisTrace.Data.IndicatorVersions

/-!
# Stability of versions

Observations that are made later only add versions. A version is decided by its key, the time of its
observation and its digest, so that the order in which observations are read does not matter.
-/

namespace ThesisTrace.IndicatorVersions
open Transaction IndicatorCollection KeyOrder

section Timelines

variable {I T D : Type} [LinearOrder D] {shanghaiDate : T → CalendarDate}
  {calendar : List CalendarDate} {instrumentIds : String → Option I}
  {observedAt observedAt' : T → Finset D} {rowsByDigest rowsByDigest' : D → SourceRow}
  {key : VersionKey} {index : ℕ} {earliest : D → Option T} {previousState : Option (Finset D)}
  {times : List T} {version : IndicatorVersion I T D}

lemma preferredIndicatorRows_subset (digests : Finset D) (rowsByDigest : D → SourceRow) :
    preferredIndicatorRows digests rowsByDigest ⊆ digests := by
  unfold preferredIndicatorRows
  dsimp only
  split
  · exact Finset.filter_subset _ _
  · exact Finset.Subset.refl _

lemma preferredIndicatorRows_congr {digests : Finset D}
    (h : ∀ sha256 ∈ digests, rowsByDigest sha256 = rowsByDigest' sha256) :
    preferredIndicatorRows digests rowsByDigest = preferredIndicatorRows digests rowsByDigest' := by
  have hfilter : digests.filter (fun sha256 => flagText (rowsByDigest sha256) = "1") =
      digests.filter fun sha256 => flagText (rowsByDigest' sha256) = "1" :=
    Finset.filter_congr fun sha256 hmem => by rw [h sha256 hmem]
  rw [preferredIndicatorRows, preferredIndicatorRows, hfilter]

/-- A timeline reads the rows of its own times only. -/
lemma timeline_congr (hobserved : ∀ time ∈ times, observedAt time = observedAt' time)
    (hrows : ∀ time ∈ times, ∀ sha256 ∈ observedAt time,
      rowsByDigest sha256 = rowsByDigest' sha256) :
    timeline shanghaiDate calendar instrumentIds observedAt rowsByDigest key index earliest
        previousState times =
      timeline shanghaiDate calendar instrumentIds observedAt' rowsByDigest' key index earliest
        previousState times := by
  induction times generalizing index earliest previousState with
  | nil => rfl
  | cons observed times ih =>
    obtain ⟨hhead, htail⟩ := List.forall_mem_cons.mp hobserved
    obtain ⟨hheadRows, htailRows⟩ := List.forall_mem_cons.mp hrows
    have hvalues := preferredIndicatorRows_congr hheadRows
    have hversions : ∀ (earliest : D → Option T) aligned,
        (preferredIndicatorRows (observedAt observed) rowsByDigest).sort.map
          (versionOf instrumentIds rowsByDigest key earliest observed aligned) =
        (preferredIndicatorRows (observedAt observed) rowsByDigest).sort.map
          (versionOf instrumentIds rowsByDigest' key earliest observed aligned) := by
      intro earliest aligned
      refine List.map_congr_left fun sha256 hmem => ?_
      have hobserved := preferredIndicatorRows_subset _ _ ((Finset.mem_sort _).mp hmem)
      rw [versionOf, versionOf, hheadRows sha256 hobserved]
    unfold timeline
    dsimp only
    rw [hversions, ← hhead, hvalues]
    split
    · exact ih htail htailRows
    · rw [ih htail htailRows]

/-- What a version of a timeline is -/
structure IsVersionAt (shanghaiDate : T → CalendarDate) (calendar : List CalendarDate)
    (instrumentIds : String → Option I) (observedAt : T → Finset D)
    (rowsByDigest : D → SourceRow) (key : VersionKey) (first : ℕ)
    (version : IndicatorVersion I T D) : Prop where
  observed : version.sourceRowSha256 ∈ observedAt version.observationEventAt
  row : version.row = rowsByDigest version.sourceRowSha256
  instrument : version.instrumentId = instrumentIds key.code
  period : version.sourceReportPeriod = key.period
  announcement : version.sourcePublishedDate = key.announcement
  aligned : ∃ count index, first ≤ index ∧
    (version.availabilityStatus, version.stateEffectiveSession) =
      align calendar key count index (shanghaiDate version.observationEventAt)

lemma isVersionAt_of_mem
    (h : version ∈ timeline shanghaiDate calendar instrumentIds observedAt rowsByDigest key index
      earliest previousState times) : version.observationEventAt ∈ times ∧
    IsVersionAt shanghaiDate calendar instrumentIds observedAt rowsByDigest key index version := by
  induction times generalizing index earliest previousState with
  | nil => cases h
  | cons observed times ih =>
    have hrest : ∀ {earliest previousState}, version ∈ timeline shanghaiDate calendar instrumentIds
        observedAt rowsByDigest key (index + 1) earliest previousState times →
        version.observationEventAt ∈ observed :: times ∧ IsVersionAt shanghaiDate calendar
          instrumentIds observedAt rowsByDigest key index version := by
      intro earliest previousState hmem
      obtain ⟨htime, hversion⟩ := ih hmem
      obtain ⟨count, position, hle, haligned⟩ := hversion.aligned
      exact ⟨List.mem_cons_of_mem _ htime, { hversion with
        aligned := ⟨count, position, Nat.le_of_succ_le hle, haligned⟩ }⟩
    unfold timeline at h
    dsimp only at h
    split at h
    · exact hrest h
    · rcases List.mem_append.mp h with h | h
      · obtain ⟨sha256, hmem, rfl⟩ := List.mem_map.mp h
        have hobserved := preferredIndicatorRows_subset _ _ ((Finset.mem_sort _).mp hmem)
        exact ⟨List.mem_cons_self, hobserved, rfl, rfl, rfl, rfl, _, index, Nat.le_refl _, rfl⟩
      · exact hrest h

variable (shanghaiDate calendar instrumentIds key) in
/-- Later times continue a timeline. -/
lemma timeline_append (observedAt : T → Finset D) (rowsByDigest : D → SourceRow) (index : ℕ)
    (earliest : D → Option T) (previousState : Option (Finset D)) (times : List T) :
    ∃ earliest' previousState', ∀ later,
      timeline shanghaiDate calendar instrumentIds observedAt rowsByDigest key index earliest
          previousState (times ++ later) =
        timeline shanghaiDate calendar instrumentIds observedAt rowsByDigest key index earliest
          previousState times ++
        timeline shanghaiDate calendar instrumentIds observedAt rowsByDigest key
          (index + times.length) earliest' previousState' later := by
  induction times generalizing index earliest previousState with
  | nil => exact ⟨earliest, previousState, fun later => rfl⟩
  | cons observed times ih =>
    let values := preferredIndicatorRows (observedAt observed) rowsByDigest
    obtain ⟨earliest', previousState', hlater⟩ := ih (index + 1)
      (setEarliest earliest (observedAt observed) observed)
      (if some values = previousState then previousState else some values)
    refine ⟨earliest', previousState', fun later => ?_⟩
    have hlength : index + (observed :: times).length = index + 1 + times.length := by
      rw [List.length_cons]
      omega
    rw [hlength, List.cons_append, timeline, timeline]
    dsimp only
    by_cases hsame : some values = previousState
    · rw [if_pos hsame] at hlater
      rw [if_pos hsame, if_pos hsame, hlater]
    · rw [if_neg hsame] at hlater
      rw [if_neg hsame, if_neg hsame, hlater, List.append_assoc]

/-- A timeline names each digest once at each time. -/
lemma timeline_pairwise [LinearOrder T] (h : times.Pairwise (· < ·)) :
    (timeline shanghaiDate calendar instrumentIds observedAt rowsByDigest key index earliest
      previousState times).Pairwise fun a b =>
        a.observationEventAt ≠ b.observationEventAt ∨ a.sourceRowSha256 ≠ b.sourceRowSha256 := by
  induction times generalizing index earliest previousState with
  | nil => exact List.Pairwise.nil
  | cons observed times ih =>
    obtain ⟨hfirst, htimes⟩ := List.pairwise_cons.mp h
    unfold timeline
    dsimp only
    split
    · exact ih htimes
    · refine List.pairwise_append.mpr ⟨?_, ih htimes, fun a ha b hb => ?_⟩
      · rw [List.pairwise_map]
        exact (Finset.sort_nodup _ _).imp fun hne => .inr hne
      · obtain ⟨sha256, -, rfl⟩ := List.mem_map.mp ha
        exact .inl (hfirst _ (isVersionAt_of_mem hb).1).ne

end Timelines

/-! ### Alignment -/

lemma lt_of_getElem?_bisectRight {calendar : List CalendarDate} {cutoff session : CalendarDate}
    (h : calendar[bisectRight calendar cutoff]? = some session) : cutoff < session := by
  induction calendar with
  | nil => cases h
  | cons first calendar ih =>
    rw [bisectRight, List.takeWhile_cons] at h
    by_cases hle : first ≤ cutoff
    · rw [if_pos (decide_eq_true hle)] at h
      exact ih h
    · rw [if_neg (by simpa using hle)] at h
      obtain rfl : first = session := by simpa using h
      exact not_le.mp hle

/-- A state that is not the first one of its key is effective after the day of its observation. -/
lemma lt_of_align {calendar : List CalendarDate} {key : VersionKey} {count index : ℕ}
    {observedDay session : CalendarDate} (hindex : index ≠ 0)
    (h : (align calendar key count index observedDay).2 = some session) : observedDay < session := by
  unfold align at h
  dsimp only at h
  split at h
  · split at h
    · cases h
    next published _ =>
      split at h
      next found hfound =>
        obtain rfl : found = session := Option.some.inj h
        have hlt := lt_of_getElem?_bisectRight hfound
        rw [cutoffOf, if_neg hindex] at hlt
        exact (le_max_right _ _).trans_lt hlt
      · cases h
  · cases h

/-! ### Entries -/

section Entries

variable {I T D : Type} [LinearOrder T] [LinearOrder D] {digest : RowDigest D}
  {shanghaiDate : T → CalendarDate} {calendar : List CalendarDate}
  {instrumentIds : String → Option I} {entries entries' later : List (Entry T)}
  {key : VersionKey} {version : IndicatorVersion I T D}

omit [LinearOrder T] in
lemma rowByDigest_of_mem {entry : Entry T} (h : entry ∈ entries) :
    rowByDigest digest entries (digest.sha256 entry.row) = entry.row := by
  have hsome : (entries.find? fun other =>
      digest.sha256 other.row = digest.sha256 entry.row).isSome := by
    rw [List.find?_isSome]
    exact ⟨entry, h, decide_eq_true rfl⟩
  obtain ⟨other, hother⟩ := Option.isSome_iff_exists.mp hsome
  have hsame : digest.sha256 other.row = digest.sha256 entry.row := by
    simpa using List.find?_some hother
  rw [rowByDigest, hother]
  exact digest.injective hsame

lemma mem_timesOf {time : T} :
    time ∈ timesOf entries key ↔ ∃ entry ∈ entries, entry.key = key ∧ entry.observed = time := by
  simp [timesOf, and_assoc]

lemma mem_digestsAt {time : T} {sha256 : D} : sha256 ∈ digestsAt digest entries key time ↔
    ∃ entry ∈ entries, (entry.key = key ∧ entry.observed = time) ∧
      digest.sha256 entry.row = sha256 := by
  simp [digestsAt, and_assoc]

lemma timesOf_pairwise (entries : List (Entry T)) (key : VersionKey) :
    (timesOf entries key).Pairwise (· < ·) :=
  (Finset.sortedLT_sort _).pairwise

lemma rowByDigest_of_mem_digestsAt (h : ∀ entry ∈ entries, entry ∈ entries') {time : T} {sha256 : D}
    (hmem : sha256 ∈ digestsAt digest entries key time) :
    rowByDigest digest entries sha256 = rowByDigest digest entries' sha256 := by
  obtain ⟨entry, hentry, -, rfl⟩ := mem_digestsAt.mp hmem
  rw [rowByDigest_of_mem hentry, rowByDigest_of_mem (h entry hentry)]

/-- The versions of a key follow from the entries, in whatever order they were read. -/
lemma versionsOfKey_perm (h : entries.Perm entries') :
    versionsOfKey digest shanghaiDate calendar instrumentIds entries key =
      versionsOfKey digest shanghaiDate calendar instrumentIds entries' key := by
  have htimes : timesOf entries key = timesOf entries' key := by
    unfold timesOf
    rw [List.toFinset_eq_of_perm _ _ ((h.filter _).map _)]
  have hdigests : ∀ time, digestsAt digest entries key time = digestsAt digest entries' key time :=
    fun time => List.toFinset_eq_of_perm _ _ ((h.filter _).map _)
  unfold versionsOfKey
  rw [← htimes]
  exact timeline_congr (fun time _ => hdigests time)
    fun time _ _ hmem => rowByDigest_of_mem_digestsAt (fun _ => h.mem_iff.mp) hmem

variable (digest shanghaiDate calendar instrumentIds key) in
/-- Entries of later times continue the timeline of a key. -/
lemma versionsOfKey_append
    (h : ∀ entry ∈ entries, ∀ entry' ∈ later, entry.observed < entry'.observed) :
    ∃ earliest previousState,
      versionsOfKey digest shanghaiDate calendar instrumentIds (entries ++ later) key =
        versionsOfKey digest shanghaiDate calendar instrumentIds entries key ++
        timeline shanghaiDate calendar instrumentIds (digestsAt digest (entries ++ later) key)
          (rowByDigest digest (entries ++ later)) key (timesOf entries key).length earliest
          previousState (timesOf later key) := by
  have htimes : timesOf (entries ++ later) key = timesOf entries key ++ timesOf later key := by
    refine @eq_of_mem_iff _ _ _ id _ _ (timesOf_pairwise _ _) (List.pairwise_append.mpr
      ⟨timesOf_pairwise _ _, timesOf_pairwise _ _, fun a ha b hb => ?_⟩) fun time => ?_
    · obtain ⟨entry, hentry, -, rfl⟩ := mem_timesOf.mp ha
      obtain ⟨entry', hentry', -, rfl⟩ := mem_timesOf.mp hb
      exact h entry hentry entry' hentry'
    · rw [List.mem_append, mem_timesOf, mem_timesOf, mem_timesOf]
      simp only [List.mem_append, or_and_right, exists_or]
  have hdigests : ∀ time ∈ timesOf entries key,
      digestsAt digest (entries ++ later) key time = digestsAt digest entries key time := by
    intro time htime
    obtain ⟨entry, hentry, -, rfl⟩ := mem_timesOf.mp htime
    have hnone : later.filter (fun entry' =>
        entry'.key = key ∧ entry'.observed = entry.observed) = [] := by
      refine List.filter_eq_nil_iff.mpr fun entry' hentry' => ?_
      rw [decide_eq_true_eq]
      exact fun hsame => (h entry hentry entry' hentry').ne' hsame.2
    unfold digestsAt
    rw [List.filter_append, hnone, List.append_nil]
  obtain ⟨earliest, previousState, happend⟩ := timeline_append shanghaiDate calendar
    instrumentIds key (digestsAt digest (entries ++ later) key) (rowByDigest digest (entries ++ later)) 0
    (fun _ => none) none (timesOf entries key)
  refine ⟨earliest, previousState, ?_⟩
  rw [versionsOfKey, htimes, happend, Nat.zero_add, versionsOfKey]
  congr 1
  refine timeline_congr hdigests fun time htime sha256 hmem => ?_
  rw [hdigests time htime] at hmem
  exact (rowByDigest_of_mem_digestsAt (fun _ => List.mem_append_left _) hmem).symm

/-- What a version of a key says of the entries -/
lemma isVersionAt_of_versionsOfKey
    (h : version ∈ versionsOfKey digest shanghaiDate calendar instrumentIds entries key) :
    version.observationEventAt ∈ timesOf entries key ∧ ∃ entry ∈ entries, entry.key = key ∧
      entry.observed = version.observationEventAt ∧ version.row = entry.row ∧
      version.sourceRowSha256 = digest.sha256 entry.row ∧
      version.instrumentId = instrumentIds key.code ∧ version.sourceReportPeriod = key.period ∧
      version.sourcePublishedDate = key.announcement := by
  obtain ⟨htime, hversion⟩ := isVersionAt_of_mem h
  obtain ⟨entry, hentry, ⟨hkey, hobserved⟩, hsha⟩ := mem_digestsAt.mp hversion.observed
  refine ⟨htime, entry, hentry, hkey, hobserved, ?_, hsha.symm, hversion.instrument,
    hversion.period, hversion.announcement⟩
  rw [hversion.row, ← hsha, rowByDigest_of_mem hentry]

variable [LinearOrder I]

lemma mem_projectEntries :
    version ∈ projectEntries digest shanghaiDate calendar instrumentIds entries ↔
      ∃ key, version ∈ versionsOfKey digest shanghaiDate calendar instrumentIds entries key := by
  rw [projectEntries, mem_sortBy, List.mem_flatMap]
  constructor
  · rintro ⟨key, -, h⟩
    exact ⟨key, h⟩
  · rintro ⟨key, h⟩
    obtain ⟨-, entry, hentry, hkey, -⟩ := isVersionAt_of_versionsOfKey h
    exact ⟨key, List.mem_dedup.mpr (List.mem_map.mpr ⟨entry, hentry, hkey⟩), h⟩

/-- The key of an entry is that of its row. -/
def Keyed (instrumentIds : String → Option I) (entries : List (Entry T)) : Prop :=
  ∀ entry ∈ entries, keyOf instrumentIds entry.row = .ok entry.key

omit [LinearOrder T] [LinearOrder I] in
lemma Keyed.perm (h : Keyed instrumentIds entries) (hperm : entries.Perm entries') :
    Keyed instrumentIds entries' := fun entry hentry => h entry (hperm.mem_iff.mpr hentry)

omit [LinearOrder I] in
lemma versions_nodup (h : Keyed instrumentIds entries) :
    (((entries.map Entry.key).dedup.flatMap (versionsOfKey digest shanghaiDate calendar
      instrumentIds entries)).map IndicatorVersion.sortKey).Nodup := by
  have hdiffers : ∀ a b : IndicatorVersion I T D, a.observationEventAt ≠ b.observationEventAt ∨
      a.sourceRowSha256 ≠ b.sourceRowSha256 → a.sortKey ≠ b.sortKey := by
    intro a b hne heq
    have hlast := congrArg (fun key : WithBot I ×ₗ String ×ₗ T ×ₗ D => (ofLex (ofLex key).2).2) heq
    obtain ⟨htime, hsha⟩ := Prod.mk.inj (toLex_inj.mp hlast)
    exact hne.elim (· htime) (· hsha)
  refine List.pairwise_map.mpr (List.pairwise_flatMap.mpr ⟨fun key _ => ?_, ?_⟩)
  · exact (timeline_pairwise (timesOf_pairwise _ _)).imp (hdiffers _ _)
  · refine (List.nodup_dedup _).imp fun {key key'} hne a ha b hb => hdiffers a b (.inr ?_)
    -- the digest fixes the row, and the row its key
    obtain ⟨-, entry, hentry, rfl, -, -, hsha, -⟩ := isVersionAt_of_versionsOfKey ha
    obtain ⟨-, entry', hentry', rfl, -, -, hsha', -⟩ := isVersionAt_of_versionsOfKey hb
    rw [hsha, hsha']
    intro hsame
    have hkey := h entry hentry
    rw [digest.injective hsame, h entry' hentry'] at hkey
    exact hne (Except.ok.inj hkey).symm

lemma projectEntries_perm (h : Keyed instrumentIds entries) (hperm : entries.Perm entries') :
    projectEntries digest shanghaiDate calendar instrumentIds entries =
      projectEntries digest shanghaiDate calendar instrumentIds entries' := by
  refine sortBy_eq_of_mem_iff (versions_nodup h) (versions_nodup (h.perm hperm)) fun version => ?_
  have hsorted : ∀ versions : List (IndicatorVersion I T D),
      version ∈ versions ↔ version ∈ sortBy IndicatorVersion.sortKey versions :=
    fun _ => mem_sortBy.symm
  refine (hsorted _).trans (Iff.trans ?_ (hsorted _).symm)
  change version ∈ projectEntries digest shanghaiDate calendar instrumentIds entries ↔
    version ∈ projectEntries digest shanghaiDate calendar instrumentIds entries'
  rw [mem_projectEntries, mem_projectEntries]
  exact exists_congr fun key => by rw [versionsOfKey_perm hperm]

/-- Later entries keep the versions of the earlier times and add none to them. -/
lemma filter_projectEntries_append (hkeyed : Keyed instrumentIds (entries ++ later))
    (h : ∀ entry ∈ entries, ∀ entry' ∈ later, entry.observed < entry'.observed) {old : T → Bool}
    (hentries : ∀ entry ∈ entries, old entry.observed) (hlater : ∀ entry ∈ later, ¬ old entry.observed) :
    (projectEntries digest shanghaiDate calendar instrumentIds (entries ++ later)).filter
        (fun version => old version.observationEventAt) =
      projectEntries digest shanghaiDate calendar instrumentIds entries := by
  have hearlier : Keyed instrumentIds entries := fun entry hentry =>
    hkeyed entry (List.mem_append_left _ hentry)
  refine eq_of_mem_iff ((sortBy_strict (versions_nodup hkeyed)).filter _)
    (sortBy_strict (versions_nodup hearlier)) fun version => ?_
  rw [List.mem_filter, mem_projectEntries, mem_projectEntries]
  constructor
  · rintro ⟨⟨key, hversion⟩, hold⟩
    obtain ⟨earliest, previousState, happend⟩ := versionsOfKey_append digest shanghaiDate
      calendar instrumentIds key h
    rw [happend, List.mem_append] at hversion
    refine ⟨key, hversion.resolve_right fun hadded => ?_⟩
    obtain ⟨entry, hentry, -, htime⟩ := mem_timesOf.mp (isVersionAt_of_mem hadded).1
    rw [← htime] at hold
    exact hlater entry hentry hold
  · rintro ⟨key, hversion⟩
    obtain ⟨earliest, previousState, happend⟩ := versionsOfKey_append digest shanghaiDate
      calendar instrumentIds key h
    obtain ⟨entry, hentry, -, htime⟩ := mem_timesOf.mp (isVersionAt_of_versionsOfKey hversion).1
    refine ⟨⟨key, happend ▸ List.mem_append_left _ hversion⟩, ?_⟩
    rw [← htime]
    exact hentries entry hentry

omit [LinearOrder I] in
/-- A version that later entries add to a key of the earlier ones is effective after the day of its
observation. -/
lemma lt_of_added
    (h : ∀ entry ∈ entries, ∀ entry' ∈ later, entry.observed < entry'.observed)
    (hversion : version ∈ versionsOfKey digest shanghaiDate calendar instrumentIds
      (entries ++ later) key)
    (hadded : ∀ entry ∈ entries, entry.observed ≠ version.observationEventAt)
    (hseen : ∃ entry ∈ entries, entry.key = key) {session : CalendarDate}
    (hsession : version.stateEffectiveSession = some session) :
    shanghaiDate version.observationEventAt < session := by
  obtain ⟨earliest, previousState, happend⟩ := versionsOfKey_append digest shanghaiDate
    calendar instrumentIds key h
  rw [happend, List.mem_append] at hversion
  rcases hversion with hold | hnew
  · obtain ⟨entry, hentry, -, htime⟩ := mem_timesOf.mp (isVersionAt_of_versionsOfKey hold).1
    exact absurd htime (hadded entry hentry)
  · obtain ⟨-, hat⟩ := isVersionAt_of_mem hnew
    obtain ⟨count, index, hindex, haligned⟩ := hat.aligned
    obtain ⟨entry, hentry, hkey⟩ := hseen
    have htimes := List.length_pos_of_mem (mem_timesOf.mpr ⟨entry, hentry, hkey, rfl⟩)
    have hne : index ≠ 0 := by omega
    have haligned := congrArg Prod.snd haligned
    exact lt_of_align hne (haligned.symm.trans hsession)

end Entries

/-! ### Projection -/

section Projection

variable {I T D : Type} [LinearOrder I] [LinearOrder T] [LinearOrder D] {digest : RowDigest D}
  {shanghaiDate : T → CalendarDate} {calendar : List CalendarDate}
  {instrumentIds : String → Option I} {observations later : List (Observation T)}

/-- An observation whose rows are projected -/
def Valid (instrumentIds : String → Option I) (observation : Observation T) : Prop :=
  ∃ entries, entriesOf instrumentIds observation = .ok entries

/-- The entries of valid observations, observation by observation -/
def allEntries (instrumentIds : String → Option I) (observations : List (Observation T)) :
    List (Entry T) :=
  observations.flatMap fun observation => ((entriesOf instrumentIds observation).toOption).getD []

omit [LinearOrder I] [LinearOrder T] in
lemma mem_allEntries (h : ∀ observation ∈ observations, Valid instrumentIds observation)
    {entry : Entry T} (hentry : entry ∈ allEntries instrumentIds observations) :
    keyOf instrumentIds entry.row = .ok entry.key ∧
      ∃ observation ∈ observations, entry.observed = observation.observedAt := by
  obtain ⟨observation, hmem, hentry⟩ := List.mem_flatMap.mp hentry
  obtain ⟨entries, hentries⟩ := h observation hmem
  rw [hentries] at hentry
  simp only [entriesOf, bind_ok_iff] at hentries
  obtain ⟨_, -, hitems⟩ := hentries
  have hrow := forall_of_forall₂ (forall₂_of_mapM hitems) (p := fun entry : Entry T =>
    keyOf instrumentIds entry.row = .ok entry.key ∧ entry.observed = observation.observedAt)
    (fun item entry hitem => by
      obtain ⟨key, hkey, heq⟩ := bind_ok_iff.mp hitem
      obtain rfl := pure_ok_iff.mp heq
      exact ⟨hkey, rfl⟩) entry hentry
  exact ⟨hrow.1, observation, hmem, hrow.2⟩

lemma project_eq (h : ∀ observation ∈ observations, Valid instrumentIds observation) :
    project digest shanghaiDate calendar instrumentIds observations =
      .ok (projectEntries digest shanghaiDate calendar instrumentIds
        (allEntries instrumentIds observations)) := by
  have hmap : observations.mapM (entriesOf instrumentIds) =
      .ok (observations.map fun observation =>
        ((entriesOf instrumentIds observation).toOption).getD []) := by
    refine mapM_ok fun observation hmem => ?_
    obtain ⟨entries, hentries⟩ := h observation hmem
    rw [hentries]
    rfl
  rw [project, hmap, ok_bind, allEntries, List.flatMap_def]
  rfl

/-- The code, the report period and the announcement of a version -/
def IndicatorVersion.key (version : IndicatorVersion I T D) : Option Cell × String × Cell :=
  (version.row.lookup "ts_code", version.sourceReportPeriod, version.sourcePublishedDate)

omit [LinearOrder I] in
lemma keyOf_code {row : SourceRow} {key : VersionKey} (h : keyOf instrumentIds row = .ok key) :
    row.lookup "ts_code" = some (.text key.code) := by
  simp only [keyOf, bind_ok_iff, found_ok_iff, pure_ok_iff] at h
  obtain ⟨cell, hcell, code, hcode, _, -, _, -, _, -, rfl⟩ := h
  rw [hcell]
  unfold codeOf at hcode
  split at hcode
  next text =>
    obtain ⟨_, -, hcode⟩ := bind_ok_iff.mp hcode
    rw [pure_ok_iff.mp hcode]
  · cases hcode

omit [LinearOrder I] in
/-- Versions of equal keys belong to one timeline. -/
lemma key_of_versionsOfKey {entries : List (Entry T)} {key : VersionKey}
    {version : IndicatorVersion I T D} (hkeyed : Keyed instrumentIds entries)
    (h : version ∈ versionsOfKey digest shanghaiDate calendar instrumentIds entries key) :
    version.key = (some (.text key.code), key.period, key.announcement) := by
  obtain ⟨-, entry, hentry, rfl, -, hrow, -, -, hperiod, hannouncement⟩ :=
    isVersionAt_of_versionsOfKey h
  rw [IndicatorVersion.key, hrow, keyOf_code (hkeyed entry hentry), hperiod, hannouncement]

/-- Observations that are made later keep all versions, and a version that they add to a seen key is
effective after its day. The order of the observations does not matter. -/
lemma project_stable
    (hvalid : ∀ observation ∈ observations ++ later, Valid instrumentIds observation)
    (hlater : ∀ observation ∈ observations, ∀ observation' ∈ later,
      observation.observedAt < observation'.observedAt) :
    ∃ versions versions',
      project digest shanghaiDate calendar instrumentIds observations = .ok versions ∧
      project digest shanghaiDate calendar instrumentIds (observations ++ later) = .ok versions' ∧
      (∀ order, order.Perm (observations ++ later) →
        project digest shanghaiDate calendar instrumentIds order = .ok versions') ∧
      versions'.filter (fun version =>
        version.observationEventAt ∈ observations.map Observation.observedAt) = versions ∧
      ∀ version ∈ versions',
        version.observationEventAt ∉ observations.map Observation.observedAt →
        (∃ old ∈ versions, old.key = version.key) →
        ∀ session ∈ version.stateEffectiveSession,
          shanghaiDate version.observationEventAt < session := by
  have hearlier : ∀ observation ∈ observations, Valid instrumentIds observation :=
    fun observation hmem => hvalid observation (List.mem_append_left _ hmem)
  have hadded : ∀ observation ∈ later, Valid instrumentIds observation :=
    fun observation hmem => hvalid observation (List.mem_append_right _ hmem)
  have hsplit : allEntries instrumentIds (observations ++ later) =
      allEntries instrumentIds observations ++ allEntries instrumentIds later :=
    List.flatMap_append
  have hkeyed : Keyed instrumentIds
      (allEntries instrumentIds observations ++ allEntries instrumentIds later) := by
    rw [← hsplit]
    exact fun entry hentry => (mem_allEntries hvalid hentry).1
  have hentries : ∀ entry ∈ allEntries instrumentIds observations,
      entry.observed ∈ observations.map Observation.observedAt := by
    intro entry hentry
    obtain ⟨-, observation, hmem, htime⟩ := mem_allEntries hearlier hentry
    exact List.mem_map.mpr ⟨observation, hmem, htime.symm⟩
  have hbefore : ∀ time ∈ observations.map Observation.observedAt,
      ∀ entry ∈ allEntries instrumentIds later, time < entry.observed := by
    intro time htime entry hentry
    obtain ⟨observation, hmem, rfl⟩ := List.mem_map.mp htime
    obtain ⟨-, observation', hmem', htime⟩ := mem_allEntries hadded hentry
    rw [htime]
    exact hlater observation hmem observation' hmem'
  have horder : ∀ entry ∈ allEntries instrumentIds observations,
      ∀ entry' ∈ allEntries instrumentIds later, entry.observed < entry'.observed :=
    fun entry hentry entry' hentry' => hbefore _ (hentries entry hentry) entry' hentry'
  refine ⟨_, _, project_eq hearlier, project_eq hvalid, fun order hperm => ?_, ?_, ?_⟩
  · have hordered : ∀ observation ∈ order, Valid instrumentIds observation :=
      fun observation hmem => hvalid observation (hperm.mem_iff.mp hmem)
    have hperm' : (allEntries instrumentIds order).Perm
        (allEntries instrumentIds (observations ++ later)) := hperm.flatMap_right _
    rw [project_eq hordered,
      projectEntries_perm (fun entry hentry => (mem_allEntries hordered hentry).1) hperm']
  · rw [hsplit]
    let old : T → Bool := fun time => time ∈ observations.map Observation.observedAt
    have hold : ∀ entry ∈ allEntries instrumentIds observations, old entry.observed :=
      fun entry hentry => decide_eq_true (hentries entry hentry)
    refine filter_projectEntries_append hkeyed horder hold fun entry hentry hmem => ?_
    exact lt_irrefl _ (hbefore _ (of_decide_eq_true hmem) entry hentry)
  · intro version hversion hnew ⟨old, hold, hsame⟩ session hsession
    rw [hsplit, mem_projectEntries] at hversion
    obtain ⟨key, hversion⟩ := hversion
    obtain ⟨oldKey, hold⟩ := mem_projectEntries.mp hold
    have hearlierKeyed : Keyed instrumentIds (allEntries instrumentIds observations) :=
      fun entry hentry => hkeyed entry (List.mem_append_left _ hentry)
    rw [key_of_versionsOfKey hearlierKeyed hold, key_of_versionsOfKey hkeyed hversion] at hsame
    obtain ⟨hcode, hrest⟩ := Prod.mk.inj hsame
    obtain ⟨hperiod, hannouncement⟩ := Prod.mk.inj hrest
    have hkey : oldKey = key :=
      VersionKey.mk.injEq .. ▸ ⟨Cell.text.inj (Option.some.inj hcode), hperiod, hannouncement⟩
    obtain ⟨-, entry, hentry, hentryKey, -⟩ := isVersionAt_of_versionsOfKey hold
    refine lt_of_added horder hversion (fun entry hentry htime => hnew ?_)
      ⟨entry, hentry, hentryKey.trans hkey⟩ hsession
    rw [← htime]
    exact hentries entry hentry

end Projection

end ThesisTrace.IndicatorVersions
