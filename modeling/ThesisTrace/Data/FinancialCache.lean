import ThesisTrace.Data.FinancialAgreement

/-!
# Cached transitions

The tables that a cache retains stay sound, whatever it drops, so that a resolver that finds some
of its transitions there returns the same table.
-/

namespace ThesisTrace.FinancialSeries
open Transaction AsOf

variable {F S I V T M : Type}

section Cache
variable [DecidableEq F] [DecidableEq M] [LinearOrder S] [LinearOrder I] [LinearOrder T]
variable [DecidableEq V]
variable (texts : DecimalTexts V) (catalog : FieldCatalog F)
variable (families : M → FinancialFamily S I V T)

/-- A retained table holds the transitions of its instrument, which have the cells of its field
from the first to the last session. -/
structure EntrySound (key : HistoryKey F S I M) (entry : List (Transition F S I V)) : Prop where
  instrument : ∀ transition ∈ entry, transition.instrumentId = key.instrumentId
  nodup : (entry.map Transition.session).Nodup
  cells : ∀ projection, catalog.projection key.fieldId = some projection →
    ∀ session, key.firstSession ≤ session → session ≤ key.lastSession →
      seriesAt texts (families key.manifestSha256) projection session key.instrumentId =
        .ok (transitionCell entry session key.instrumentId key.fieldId)

def CacheSound (cache : HistoryProjectionCache F S I V M) : Prop :=
  ∀ key entry, cache key = some entry → EntrySound texts catalog families key entry

variable {texts catalog families}

omit [DecidableEq M] in
/-- What is loaded for an instrument may be retained. -/
lemma loadHistory_sound (hsettled : ∀ m, (families m).Settled) {manifestSha256 : M}
    {projection : FieldProjection F}
    {history : List S} {instrumentIds : List I} {loaded : List (Transition F S I V)}
    (hprojection : catalog.projection projection.fieldId = some projection)
    (h : loadHistory texts families manifestSha256 projection history instrumentIds = .ok loaded)
    {first last : S} (hfirst : history.head? = some first) (hlast : history.getLast? = some last)
    {instrumentId : I} (hmem : instrumentId ∈ instrumentIds) :
    EntrySound texts catalog families ⟨manifestSha256, projection.fieldId, first, last, instrumentId⟩
      ((loaded.mergeSort fun x y => x.instrumentId ≤ y.instrumentId).filter fun transition =>
        transition.instrumentId = instrumentId) := by
  unfold loadHistory at h
  obtain ⟨table, hread, htransitions⟩ := bind_ok_iff.mp h
  have hgroup : ∀ p ∈ [projection], p.endpoint = projection.endpoint ∧
      p.periodSelection = projection.periodSelection := fun p hp => by
    rw [List.mem_singleton.mp hp]
    exact ⟨rfl, rfl⟩
  have htracks := projectionTransitions_tracks texts htransitions
    (fun p hp => (hgroup p hp).2) (List.nodup_singleton _) (readFinancialTable_latest (hsettled _) hread).1 hmem
  have hperm := (List.mergeSort_perm loaded fun x y => x.instrumentId ≤ y.instrumentId).filter
    fun transition => transition.instrumentId = instrumentId
  refine ⟨fun transition htransition => of_decide_eq_true (List.mem_filter.mp htransition).2,
    (hperm.map _).nodup_iff.mpr htracks.nodup, fun p hp session hle hge => ?_⟩
  obtain rfl : projection = p := Option.some.inj (hprojection.symm.trans hp)
  rw [seriesAt_of_tracks (hsettled _) hread hgroup hmem htracks hfirst hlast hle hge List.mem_cons_self]
  refine congrArg Except.ok ?_
  unfold transitionCell
  rw [transitionAt_congr (hperm.symm.trans (.of_eq ?_)) htracks.nodup session]
  rw [List.filter_filter]
  simp

lemma flatten_filterMap {α β : Type} (f : α → Option (List β)) (l : List α) :
    (l.filterMap f).flatten = l.flatMap fun a => (f a).getD [] := by
  induction l with
  | nil => rfl
  | cons a l ih => cases hfa : f a <;> simp [hfa, ih]

lemma flatMap_filter {α β : Type} (p : α → Bool) (f : α → List β) (l : List α) :
    (l.filter p).flatMap f = l.flatMap fun a => if p a then f a else [] := by
  induction l with
  | nil => rfl
  | cons a l ih => cases hpa : p a <;> simp [hpa, ih]

omit [DecidableEq F] [DecidableEq M] [LinearOrder S] [DecidableEq V] in
/-- Each instrument has its own part, which is cached or loaded. -/
lemma filter_parts {cached : I → Option (List (Transition F S I V))}
    {slice : I → List (Transition F S I V)} {instrumentIds : List I}
    (hcached : ∀ i entry, cached i = some entry → ∀ transition ∈ entry, transition.instrumentId = i)
    (hslice : ∀ i, ∀ transition ∈ slice i, transition.instrumentId = i)
    (hnodup : instrumentIds.Nodup) {instrumentId : I} (hmem : instrumentId ∈ instrumentIds) :
    ((instrumentIds.filterMap cached).flatten ++
        (instrumentIds.filter fun i => (cached i).isNone).flatMap slice).filter
        (fun transition => transition.instrumentId = instrumentId) =
      (cached instrumentId).getD (slice instrumentId) := by
  have hself : ∀ (part : I → List (Transition F S I V)),
      (∀ i, ∀ transition ∈ part i, transition.instrumentId = i) →
      (instrumentIds.flatMap part).filter (fun transition =>
        transition.instrumentId = instrumentId) = part instrumentId := by
    intro part hpart
    have hone : ∀ i, (part i).filter (fun transition => transition.instrumentId = instrumentId) =
        if i = instrumentId then part i else [] := by
      intro i
      split_ifs with heq
      · exact List.filter_eq_self.mpr fun transition htransition =>
          decide_eq_true ((hpart i transition htransition).trans heq)
      · refine List.filter_eq_nil_iff.mpr fun transition htransition => ?_
        rw [decide_eq_true_eq, hpart i transition htransition]
        exact heq
    rw [List.filter_flatMap]
    simp only [hone]
    rw [Windows.flatMap_ite hnodup, if_pos hmem]
  rw [flatten_filterMap, flatMap_filter, List.filter_append, hself, hself]
  · cases cached instrumentId <;> simp
  · intro i transition htransition
    split_ifs at htransition
    · exact hslice i transition htransition
    · cases htransition
  · intro i transition htransition
    cases hentry : cached i with
    | none =>
      rw [hentry] at htransition
      cases htransition
    | some entry =>
      rw [hentry] at htransition
      exact hcached i entry hentry transition htransition

variable {cache next : HistoryProjectionCache F S I V M} {retained : HistoryKey F S I M → Bool}
variable {manifestSha256 : M} {projection : FieldProjection F} {history : List S}
variable {instrumentIds : List I} {transitions : List (Transition F S I V)}

/-- A read leaves sound tables behind, and each instrument has its own part of what it returns. -/
lemma readInstruments_ok (hsettled : ∀ m, (families m).Settled)
    (hcache : CacheSound texts catalog families cache)
    (hprojection : catalog.projection projection.fieldId = some projection)
    (h : readInstruments texts families cache retained manifestSha256 projection history
      instrumentIds = .ok (transitions, next)) :
    CacheSound texts catalog families next ∧ ∃ first last, history.head? = some first ∧
      history.getLast? = some last ∧ ∃ part : I → List (Transition F S I V),
        (∀ instrumentId ∈ instrumentIds, EntrySound texts catalog families
          ⟨manifestSha256, projection.fieldId, first, last, instrumentId⟩ (part instrumentId)) ∧
        (instrumentIds.Nodup → ∀ instrumentId ∈ instrumentIds, transitions.filter
          (fun transition => transition.instrumentId = instrumentId) = part instrumentId) := by
  unfold readInstruments at h
  simp only [bind_ok_iff, found_ok_iff] at h
  obtain ⟨first, hfirst, last, hlast, h⟩ := h
  set key : I → HistoryKey F S I M :=
    HistoryKey.mk manifestSha256 projection.fieldId first last with hkey
  have hcached : ∀ i entry, cache (key i) = some entry →
      ∀ transition ∈ entry, transition.instrumentId = i :=
    fun i entry hentry => (hcache (key i) entry hentry).instrument
  split_ifs at h with hmissing
  · obtain ⟨rfl, rfl⟩ := Prod.mk.inj (pure_ok_iff.mp h)
    refine ⟨fun entry table hentry => ?_, first, last, hfirst, hlast,
      fun i => (cache (key i)).getD [], fun i hi => ?_, fun hnodup i hi => ?_⟩
    · dsimp only at hentry
      split_ifs at hentry
      exact hcache entry table hentry
    · cases hentry : cache (key i) with
      | none =>
        have hin : i ∈ instrumentIds.filter fun i => (cache (key i)).isNone :=
          List.mem_filter.mpr ⟨hi, by rw [hentry]; rfl⟩
        rw [hmissing] at hin
        cases hin
      | some entry =>
        dsimp only
        rw [hentry]
        exact hcache (key i) entry hentry
    · have hparts := @filter_parts _ _ _ _ _ _ (fun _ => []) _ hcached (fun _ => by simp) hnodup _ hi
      rwa [hmissing, List.flatMap_nil, List.append_nil] at hparts
  · simp only [bind_ok_iff, pure_ok_iff] at h
    obtain ⟨loaded, hloaded, _, _, heq⟩ := h
    obtain ⟨rfl, rfl⟩ := Prod.mk.inj heq
    have hsound : ∀ i ∈ instrumentIds.filter fun i => (cache (key i)).isNone,
        EntrySound texts catalog families (key i) ((loaded.mergeSort fun x y =>
          x.instrumentId ≤ y.instrumentId).filter fun transition => transition.instrumentId = i) :=
      fun i hi => loadHistory_sound hsettled hprojection hloaded hfirst hlast hi
    refine ⟨fun entry table hentry => ?_, first, last, hfirst, hlast,
      fun i => (cache (key i)).getD ((loaded.mergeSort fun x y =>
        x.instrumentId ≤ y.instrumentId).filter fun transition => transition.instrumentId = i),
      fun i hi => ?_, fun hnodup i hi => ?_⟩
    · dsimp only at hentry
      split_ifs at hentry with _ hown
      · rw [hown.1, ← Option.some.inj hentry]
        exact hsound entry.instrumentId hown.2
      · exact hcache entry table hentry
    · cases hentry : cache (key i) with
      | none =>
        dsimp only
        rw [hentry]
        exact hsound i (List.mem_filter.mpr ⟨hi, by rw [hentry]; rfl⟩)
      | some entry =>
        dsimp only
        rw [hentry]
        exact hcache (key i) entry hentry
    · exact filter_parts hcached (fun i transition htransition =>
        of_decide_eq_true (List.mem_filter.mp htransition).2) hnodup hi

/-- Every cache that reads leave behind is sound. -/
theorem CacheReachable.sound (hsettled : ∀ m, (families m).Settled)
    (h : CacheReachable texts catalog families cache) :
    CacheSound texts catalog families cache := by
  induction h with
  | empty => exact nofun
  | read _ _ _ _ _ _ _ hprojection hread ih => exact (readInstruments_ok hsettled ih hprojection hread).1

/-- The transitions of a read have the cells of the series. -/
lemma seriesAt_of_readInstruments (hsettled : ∀ m, (families m).Settled)
    (hcache : CacheSound texts catalog families cache)
    (hprojection : catalog.projection projection.fieldId = some projection)
    (h : readInstruments texts families cache retained manifestSha256 projection history
      instrumentIds = .ok (transitions, next))
    (hnodup : instrumentIds.Nodup) (hhistory : history.Pairwise (· < ·)) {session : S}
    (hsession : session ∈ history) {instrumentId : I} (hmem : instrumentId ∈ instrumentIds) :
    seriesAt texts (families manifestSha256) projection session instrumentId =
      .ok (transitionCell transitions session instrumentId projection.fieldId) := by
  obtain ⟨_, first, last, hfirst, hlast, part, hsound, hparts⟩ :=
    readInstruments_ok hsettled hcache hprojection h
  obtain ⟨first', last', hfirst', hlast', hle, hge⟩ := between_of_mem hhistory hsession
  obtain rfl : first = first' := Option.some.inj (hfirst.symm.trans hfirst')
  obtain rfl : last = last' := Option.some.inj (hlast.symm.trans hlast')
  have hpart := hsound instrumentId hmem
  have hself : (part instrumentId).filter (fun transition =>
      transition.instrumentId = instrumentId) = part instrumentId :=
    List.filter_eq_self.mpr fun transition htransition =>
      decide_eq_true (hpart.instrument transition htransition)
  rw [hpart.cells projection hprojection session hle hge]
  refine congrArg Except.ok ?_
  unfold transitionCell
  rw [@transitionAt_congr _ _ _ _ _ _ _ _ transitions (.of_eq (hself.trans
    (hparts hnodup instrumentId hmem).symm)) (hself.symm ▸ hpart.nodup) session]

/-- The columns along the projections, from any sound cache. -/
lemma resolveCachedProjections_ok (hsettled : ∀ m, (families m).Settled)
    {calendar : FrozenCalendar S} {request : SeriesRequest F S I M}
    {keep : F → HistoryKey F S I M → Bool} {projections : List (FieldProjection F)}
    {columns : List (F × AlignedColumn S I V)}
    (hcache : CacheSound texts catalog families cache)
    (hknown : ∀ projection ∈ projections,
      catalog.projection projection.fieldId = some projection)
    (hnodup : request.instrumentIds.Nodup)
    (hsessions : ∀ session ∈ request.sessions, session ∈ calendar.sessions)
    (h : resolveCachedProjections texts families keep calendar request projections cache =
      .ok (columns, next)) :
    projections.mapM (fun projection => do
      let column ← seriesColumn texts (families request.manifestSha256) projection
        request.sessions request.instrumentIds
      pure (projection.fieldId, column)) = .ok columns := by
  induction projections generalizing cache columns with
  | nil =>
    cases h
    rfl
  | cons projection projections ih =>
    unfold resolveCachedProjections at h
    simp only [bind_ok_iff, pure_ok_iff] at h
    obtain ⟨⟨transitions, between⟩, hread, ⟨rest, last⟩, hrest, heq⟩ := h
    obtain ⟨rfl, rfl⟩ := Prod.mk.inj heq
    obtain ⟨hprojection, hknown⟩ := List.forall_mem_cons.mp hknown
    have hcells : ∀ p ∈ [projection], ∀ session ∈ request.sessions,
        ∀ instrumentId ∈ request.instrumentIds,
          seriesAt texts (families request.manifestSha256) p session instrumentId =
            .ok (transitionCell transitions session instrumentId p.fieldId) := by
      intro p hp session hsession instrumentId hinstrumentId
      rw [List.mem_singleton.mp hp]
      exact seriesAt_of_readInstruments hsettled hcache hprojection hread hnodup
        calendar.ascending (hsessions session hsession) hinstrumentId
    have hhead := alignProjectionGroup_columns hcells
    have htail := ih (readInstruments_ok hsettled hcache hprojection hread).1 hknown hrest
    have hsplit : projection :: projections = [projection] ++ projections := rfl
    rw [hsplit, List.mapM_append, hhead, htail]
    rfl

/-- A table that is returned with the help of a cache is the series of its request. -/
theorem resolveTableCached_ok (hsettled : ∀ m, (families m).Settled)
    {calendar : FrozenCalendar S} {request : SeriesRequest F S I M}
    {keep : F → HistoryKey F S I M → Bool} {columns : List (F × AlignedColumn S I V)}
    (hcache : CacheReachable texts catalog families cache)
    (h : resolveTableCached texts catalog families keep calendar cache request =
      .ok (columns, next)) :
    seriesTable texts catalog families request = .ok columns := by
  unfold resolveTableCached at h
  obtain ⟨_, hvalid, h⟩ := bind_ok_iff.mp h
  obtain ⟨projections, hselect, h⟩ := bind_ok_iff.mp h
  obtain ⟨_, hsessions, h⟩ := bind_ok_iff.mp h
  have hinstruments : request.instrumentIds.Nodup := by
    rw [SeriesRequest.validate, require_ok_iff] at hvalid
    exact hvalid.2.2.2.2.2.imp ne_of_lt
  unfold seriesTable
  rw [hvalid, ok_bind, hselect, ok_bind]
  exact resolveCachedProjections_ok hsettled (hcache.sound hsettled) (select_ok hselect).2 hinstruments
    (require_ok_iff.mp hsessions) h

end Cache


end ThesisTrace.FinancialSeries
