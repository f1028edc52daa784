import ThesisTrace.Factor.ChunkResolution
import ThesisTrace.Library.Outcomes

/-!
# Factor results do not depend on the chunks

The chunks of a Run announce what they resolve and resolve it: every label once, and those
beyond the Research Period only in the final chunk. Each horizon collects the observations of the
whole period in their order, and from them its summary.
-/

namespace ThesisTrace.Factor
open Transaction Strategy

variable {S I V C ε : Type} [LinearOrder I] [LinearOrder S]
variable {run : FactorRun S I V C ε} {first : Nat}

/-! ### Observations -/

/-- The coordinates of an observation, and when its label lies beyond the Research Period. -/
lemma observe_ok {horizon : Nat} {session : S} {row : FactorObservation S V}
    (h : run.observe horizon session = .ok row) :
    row.horizon = horizon ∧ row.session = session ∧
    (row.labelStatus = .withinResearchPeriod ↔
      run.market.sessions.idxOf session + 1 + horizon < run.market.sessions.length) := by
  unfold FactorRun.observe at h
  by_cases hsession : run.market.sessions.idxOf session < run.market.sessions.length
  · rw [dif_pos hsession, mapError_ok_iff] at h
    unfold factorDayColumnar factorObservation at h
    simp only [bind_ok_iff, pure_ok_iff] at h
    obtain ⟨_, _, _, _, _, _, rfl⟩ := h
    refine ⟨rfl, ?_, ?_⟩
    · simp
    · simp only
      split_ifs with hexit <;> simp_all
  · rw [dif_neg hsession] at h
    cases h

/-- The observations of a list of sessions. -/
def FactorRun.observations (run : FactorRun S I V C ε) (sessions : List S) (horizon : Nat) :
    List (FactorObservation S V) :=
  sessions.filterMap fun session => (run.observe horizon session).toOption

lemma mem_observations {sessions : List S} {horizon : Nat} {row : FactorObservation S V} :
    row ∈ run.observations sessions horizon ↔
      ∃ session ∈ sessions, run.observe horizon session = .ok row := by
  simp only [FactorRun.observations, List.mem_filterMap]
  refine exists_congr fun session => and_congr_right fun _ => ?_
  cases run.observe horizon session <;> simp [Except.toOption]

lemma observations_append (left right : List S) (horizon : Nat) :
    run.observations (left ++ right) horizon =
      run.observations left horizon ++ run.observations right horizon :=
  List.filterMap_append

/-- A label is computed, and the check of the evidence accepts its observation. -/
def FactorRun.Observable (run : FactorRun S I V C ε) (horizon : Nat) (session : S) : Prop :=
  ∃ row, run.observe horizon session = .ok row ∧
    row.IsValid run.isFinite run.inRange run.arithmetic.difference

lemma observations_coordinates {sessions : List S} {horizon : Nat}
    (h : ∀ session ∈ sessions, run.Observable horizon session) :
    (run.observations sessions horizon).map (fun row => (row.horizon, row.session)) =
      sessions.map fun session => (horizon, session) := by
  induction sessions with
  | nil => rfl
  | cons session sessions ih =>
    obtain ⟨row, hrow, _⟩ := h session List.mem_cons_self
    obtain ⟨hhorizon, hsession, _⟩ := observe_ok hrow
    rw [FactorRun.observations, List.filterMap_cons_some (b := row) (by rw [hrow]; rfl),
      List.map_cons, List.map_cons, hhorizon, hsession]
    exact congrArg _ (ih fun other hother => h other (List.mem_cons_of_mem _ hother))

/-! ### The rows of a chunk -/

section Rows
variable {before after : Nat} {final : Bool}

/-- The rows of the windows of a chunk, horizon by horizon. -/
def FactorRun.windowRows (run : FactorRun S I V C ε) (first before after : Nat) (final : Bool) :
    List (FactorObservation S V) :=
  run.horizons.horizons.flatMap fun horizon =>
    run.observations (run.window first before after final horizon) horizon

lemma window_sublist (horizon : Nat) :
    (run.window first before after final horizon).Sublist run.market.sessions :=
  (List.drop_sublist _ _).trans ((List.take_sublist _ _).trans (List.drop_sublist _ _))

lemma windowRows_coordinates
    (h : ∀ horizon ∈ run.horizons.horizons,
      ∀ session ∈ run.window first before after final horizon, run.Observable horizon session) :
    (run.windowRows first before after final).map (fun row => (row.horizon, row.session)) =
      run.horizons.horizons.flatMap fun horizon =>
        (run.window first before after final horizon).map fun session => (horizon, session) := by
  rw [FactorRun.windowRows, List.map_flatMap]
  exact List.flatMap_congr fun horizon hhorizon => observations_coordinates (h horizon hhorizon)

/-- The rows of a chunk are sorted by their coordinates. -/
lemma windowRows_sorted
    (h : ∀ horizon ∈ run.horizons.horizons,
      ∀ session ∈ run.window first before after final horizon, run.Observable horizon session) :
    ((run.windowRows first before after final).map FactorObservation.coordinate).Pairwise
      (· < ·) := by
  have hcoordinates : (run.windowRows first before after final).map FactorObservation.coordinate =
      (run.horizons.horizons.flatMap fun horizon =>
        (run.window first before after final horizon).map fun session =>
          toLex (horizon, session)) := by
    have hmap := congrArg (List.map toLex) (windowRows_coordinates h)
    simp only [List.map_map, List.map_flatMap, Function.comp_def] at hmap
    exact hmap
  rw [hcoordinates, List.pairwise_flatMap]
  refine ⟨fun horizon _ => ?_, run.horizons.sorted.imp fun hlt => ?_⟩
  · rw [List.pairwise_map]
    refine (run.market.sessions_sorted.sublist (window_sublist horizon)).imp fun hlt => ?_
    exact Prod.Lex.toLex_lt_toLex.mpr (.inr ⟨rfl, hlt⟩)
  · intro x hx y hy
    obtain ⟨_, _, rfl⟩ := List.mem_map.mp hx
    obtain ⟨_, _, rfl⟩ := List.mem_map.mp hy
    exact Prod.Lex.toLex_lt_toLex.mpr (.inl hlt)

/-- The rows of one horizon. -/
lemma filter_windowRows {horizon : Nat} (hhorizon : horizon ∈ run.horizons.horizons) :
    (run.windowRows first before after final).filter (fun row => row.horizon = horizon) =
      run.observations (run.window first before after final horizon) horizon := by
  have hself : ∀ k sessions, (run.observations sessions k).filter (fun row => row.horizon = horizon) =
      if k = horizon then run.observations sessions k else [] := by
    intro k sessions
    have hrow : ∀ row ∈ run.observations sessions k, row.horizon = k := by
      intro row hmem
      obtain ⟨session, _, hok⟩ := mem_observations.mp hmem
      exact (observe_ok hok).1
    split_ifs with heq
    · exact List.filter_eq_self.mpr fun row hmem => decide_eq_true ((hrow row hmem).trans heq)
    · refine List.filter_eq_nil_iff.mpr fun row hmem => ?_
      rw [decide_eq_true_eq, hrow row hmem]
      exact heq
  rw [FactorRun.windowRows, List.filter_flatMap]
  simp only [hself]
  rw [Windows.flatMap_ite run.horizons.nodup, if_pos hhorizon]

/-- The aggregate of a horizon takes in the rows of its own windows. -/
lemma advanceFactorState_eq {factorState : Nat → HorizonState V C}
    (rows : Nat → List (FactorObservation S V)) {hs : List Nat} (hnodup : hs.Nodup) (k : Nat) :
    run.advanceFactorState factorState (hs.map fun horizon => (horizon, rows horizon)) k =
      if k ∈ hs then
        (rows k).foldl (HorizonState.advance run.summaries run.digests) (factorState k)
      else factorState k := by
  unfold FactorRun.advanceFactorState
  induction hs generalizing factorState with
  | nil => rfl
  | cons horizon hs ih =>
    obtain ⟨hnotin, hnodup⟩ := List.nodup_cons.mp hnodup
    rw [List.map_cons, List.foldl_cons, ih hnodup]
    by_cases heq : k = horizon
    · subst heq
      rw [if_neg hnotin, if_pos List.mem_cons_self, Function.update_self]
    · simp only [List.mem_cons, heq, false_or, Function.update_of_ne heq]

variable [DecidableEq V]

/-- What the aggregates are after a chunk. -/
def FactorRun.stateAfter (run : FactorRun S I V C ε) (first before after : Nat) (final : Bool)
    (factorState : Nat → HorizonState V C) : Nat → HorizonState V C :=
  run.advanceFactorState factorState (run.horizons.horizons.map fun horizon =>
    (horizon, run.observations (run.window first before after final horizon) horizon))

/-- `finalize_factor_state` -/
def FactorRun.finalize (run : FactorRun S I V C ε) (factorState : Nat → HorizonState V C) :
    Except ε (List (HorizonSummary V C)) :=
  run.horizons.horizons.mapM fun horizon =>
    finalizeHorizon run.summaries horizon (factorState horizon)

omit [LinearOrder I] [LinearOrder S] [DecidableEq V] in
lemma summarized_iff {x : Except ε (List (HorizonSummary V C))}
    {continuation : FactorContinuation S V C} {rows : List (FactorObservation S V)}
    {outcome : ChunkOutcome S V C} :
    ((do
      let summary ← some <$> x.mapError ChunkError.summary
      pure ⟨continuation, rows, summary⟩ : Except (ChunkError S I ε) _) = .ok outcome) ↔
      ∃ values, x = .ok values ∧ outcome = ⟨continuation, rows, some values⟩ := by
  cases x with
  | error e =>
    constructor
    · intro h
      cases h
    · rintro ⟨_, h, _⟩
      cases h
  | ok values =>
    constructor
    · intro h
      cases h
      exact ⟨values, rfl, rfl⟩
    · rintro ⟨_, h, rfl⟩
      cases h
      rfl

/-- A chunk succeeds when its labels are observable and, in the final chunk, the summary is
computed. -/
lemma chunkResult_ok_iff {factorState : Nat → HorizonState V C} {outcome : ChunkOutcome S V C} :
    run.chunkResult first before after final factorState = .ok outcome ↔
      (∀ horizon ∈ run.horizons.horizons,
        ∀ session ∈ run.window first before after final horizon,
          run.Observable horizon session) ∧
      outcome.continuation = ⟨if final then [] else run.pendingAt first after,
        run.stateAfter first before after final factorState⟩ ∧
      outcome.factorDailyObservations = run.windowRows first before after final ∧
      (if final then ∃ summary, outcome.factorSummary = some summary ∧
        run.finalize (run.stateAfter first before after final factorState) = .ok summary
      else outcome.factorSummary = none) := by
  by_cases hobserved : ∀ horizon ∈ run.horizons.horizons,
      ∀ session ∈ run.window first before after final horizon,
        ∃ row, run.observe horizon session = .ok row
  · have hdaily : run.horizons.horizons.mapM (fun horizon => do
        let days ← (run.window first before after final horizon).mapM (run.observe horizon)
        pure (horizon, days)) = .ok (run.horizons.horizons.map fun horizon =>
          (horizon, run.observations (run.window first before after final horizon) horizon)) := by
      refine mapM_ok fun horizon hhorizon => ?_
      rw [mapM_toOption (hobserved horizon hhorizon)]
      rfl
    have hrows : (run.horizons.horizons.map fun horizon => (horizon,
        run.observations (run.window first before after final horizon) horizon)).flatMap Prod.snd =
        run.windowRows first before after final := List.flatMap_map ..
    have hvalid : (∀ row ∈ run.windowRows first before after final,
        row.IsValid run.isFinite run.inRange run.arithmetic.difference) ↔ ∀ horizon ∈ run.horizons.horizons,
        ∀ session ∈ run.window first before after final horizon,
          run.Observable horizon session := by
      constructor
      · intro hall horizon hhorizon session hsession
        obtain ⟨row, hrow⟩ := hobserved horizon hhorizon session hsession
        exact ⟨row, hrow, hall row (List.mem_flatMap.mpr ⟨horizon, hhorizon,
          mem_observations.mpr ⟨session, hsession, hrow⟩⟩)⟩
      · intro hall row hmem
        obtain ⟨horizon, hhorizon, hin⟩ := List.mem_flatMap.mp hmem
        obtain ⟨session, hsession, hrow⟩ := mem_observations.mp hin
        obtain ⟨row', hrow', hcheck⟩ := hall horizon hhorizon session hsession
        obtain rfl : row = row' := Except.ok.inj (hrow.symm.trans hrow')
        exact hcheck
    have hcheck : ∀ rows, (validateFactorObservations run.isFinite run.inRange
        run.arithmetic.difference (run.windowRows first before after final) : Except (ChunkError S I ε) _) = .ok rows ↔
        (∀ horizon ∈ run.horizons.horizons,
          ∀ session ∈ run.window first before after final horizon,
            run.Observable horizon session) ∧ rows = run.windowRows first before after final := by
      intro rows
      unfold validateFactorObservations
      simp only [bind_ok_iff, require_ok_iff, pure_ok_iff, exists_const]
      rw [hvalid]
      refine and_congr_right fun hall => ?_
      simp only [windowRows_sorted hall, true_and]
      exact eq_comm
    unfold FactorRun.chunkResult
    rw [hdaily, ok_bind, hrows, bind_ok_iff]
    simp only [hcheck]
    obtain ⟨continuation, rows, summary⟩ := outcome
    cases final with
    | false =>
      constructor
      · rintro ⟨_, ⟨hall, rfl⟩, hrest⟩
        cases hrest
        exact ⟨hall, rfl, rfl, rfl⟩
      · rintro ⟨hall, hcontinuation, hrowsEq, hsummary⟩
        dsimp only at hcontinuation hrowsEq hsummary
        subst hcontinuation hrowsEq hsummary
        exact ⟨_, ⟨hall, rfl⟩, rfl⟩
    | true =>
      constructor
      · rintro ⟨_, ⟨hall, rfl⟩, hrest⟩
        obtain ⟨values, hvalues, heq⟩ := summarized_iff.mp hrest
        cases heq
        exact ⟨hall, rfl, rfl, values, rfl, hvalues⟩
      · rintro ⟨hall, hcontinuation, hrowsEq, values, hsummary, hvalues⟩
        dsimp only at hcontinuation hrowsEq hsummary
        subst hcontinuation hrowsEq hsummary
        exact ⟨_, ⟨hall, rfl⟩, summarized_iff.mpr ⟨values, hvalues, rfl⟩⟩
  · constructor
    · intro hok
      unfold FactorRun.chunkResult at hok
      obtain ⟨daily, hdaily, _⟩ := bind_ok_iff.mp hok
      refine absurd (fun horizon hhorizon session hsession => ?_) hobserved
      obtain ⟨_, hdays⟩ := mapM_ok_mem hdaily horizon hhorizon
      obtain ⟨days, hmap, _⟩ := bind_ok_iff.mp hdays
      exact mapM_ok_mem hmap session hsession
    · rintro ⟨hall, _⟩
      refine absurd (fun horizon hhorizon session hsession => ?_) hobserved
      obtain ⟨row, hrow, _⟩ := hall horizon hhorizon session hsession
      exact ⟨row, hrow⟩

end Rows

/-! ### All chunks of a Run -/

section Runs

/-- The chunks from one position on make the observations that are announced for them. -/
def FactorRun.Announced (run : FactorRun S I V C ε) (first : Nat) :
    Nat → List (List S) → List (ChunkOutcome S V C) → Prop
  | _, [], outcomes => outcomes = []
  | _, _ :: _, [] => False
  | before, chunk :: chunks, outcome :: outcomes =>
    (factorResolutionCoordinates run.horizons (run.researchSessions first) before
        (before + chunk.length) chunks.isEmpty : Except (ChunkError S I ε) _) =
      .ok (outcome.factorDailyObservations.map fun row => (row.horizon, row.session)) ∧
    run.Announced first (before + chunk.length) chunks outcomes

/-- The sessions whose labels are open at a position. -/
def FactorRun.openSessions (run : FactorRun S I V C ε) (first before horizon : Nat) : List S :=
  (run.researchSessions first).drop (before - horizon - 1)

/-- The aggregates of a Run at its end, from those at a position. -/
def FactorRun.finalState (run : FactorRun S I V C ε) (first before : Nat)
    (factorState : Nat → HorizonState V C) (horizon : Nat) : HorizonState V C :=
  (run.observations (run.openSessions first before horizon) horizon).foldl
    (HorizonState.advance run.summaries run.digests) (factorState horizon)

/-- What the chunks from one position on come to. -/
structure FactorRun.Resolved (run : FactorRun S I V C ε) (first before : Nat)
    (factorState : Nat → HorizonState V C) (chunks : List (List S))
    (outcomes : List (ChunkOutcome S V C)) : Prop where
  announced : run.Announced first before chunks outcomes
  observable : ∀ horizon ∈ run.horizons.horizons,
    ∀ session ∈ run.openSessions first before horizon, run.Observable horizon session
  rows : ∀ horizon ∈ run.horizons.horizons,
    (outcomes.flatMap ChunkOutcome.factorDailyObservations).filter
        (fun row => row.horizon = horizon) =
      run.observations (run.openSessions first before horizon) horizon
  pending : ∀ outcome ∈ outcomes,
    outcome.continuation.pendingAlpha.length ≤ run.horizons.maxPendingAlphaSessions
  censored : ∀ outcome ∈ outcomes.dropLast, ∀ row ∈ outcome.factorDailyObservations,
    row.labelStatus = .withinResearchPeriod
  summary : ∃ values, outcomes.getLast?.bind ChunkOutcome.factorSummary = some values ∧
    run.finalize (run.finalState first before factorState) = .ok values

section Chunk
variable {chunk : List S} {before after : Nat} {final : Bool}
  (h : run.IsChunk first chunk before after final)
include h

lemma announced_eq : (factorResolutionCoordinates run.horizons (run.researchSessions first) before
      after final : Except (ChunkError S I ε) _) =
    .ok (run.horizons.horizons.flatMap fun horizon =>
      (run.window first before after final horizon).map fun session => (horizon, session)) := by
  have hboundary : (run.researchSessions first).Pairwise (· < ·) ∧ before ≤ after ∧
      after ≤ (run.researchSessions first).length ∧
      (final → after = (run.researchSessions first).length) :=
    ⟨run.market.sessions_sorted.sublist (List.drop_sublist _ _), h.lt.le, h.le, h.final⟩
  unfold factorResolutionCoordinates
  rw [require, if_pos hboundary]
  rfl

/-- The open sessions of a horizon are those of the chunk's window and those that stay open. -/
lemma openSessions_eq (horizon : Nat) : run.openSessions first before horizon =
    run.window first before after final horizon ++
      if final then [] else run.openSessions first after horizon := by
  have hlt := h.lt
  cases final with
  | true => simp [FactorRun.openSessions, FactorRun.window]
  | false =>
    have hle : before - horizon - 1 ≤ after - horizon - 1 := by omega
    exact (Windows.window_append_drop hle).symm

lemma finalState_eq (factorState : Nat → HorizonState V C) {horizon : Nat}
    (hhorizon : horizon ∈ run.horizons.horizons) :
    run.finalState first before factorState horizon =
      if final then run.stateAfter first before after final factorState horizon
      else run.finalState first after (run.stateAfter first before after final factorState)
        horizon := by
  have hafter : run.stateAfter first before after final factorState horizon =
      (run.observations (run.window first before after final horizon) horizon).foldl
        (HorizonState.advance run.summaries run.digests) (factorState horizon) := by
    unfold FactorRun.stateAfter
    rw [advanceFactorState_eq (fun horizon =>
      run.observations (run.window first before after final horizon) horizon)
      run.horizons.nodup horizon, if_pos hhorizon]
  unfold FactorRun.finalState
  rw [openSessions_eq h horizon, observations_append, List.foldl_append, hafter]
  cases final <;> rfl

/-- Before the final chunk, a chunk resolves labels that lie within the Research Period. -/
lemma windowRows_within (hfinal : final = false) :
    ∀ row ∈ run.windowRows first before after final, row.labelStatus = .withinResearchPeriod := by
  intro row hrow
  obtain ⟨horizon, hhorizon, hin⟩ := List.mem_flatMap.mp hrow
  obtain ⟨session, hsession, hok⟩ := mem_observations.mp hin
  obtain ⟨_, _, hstatus⟩ := observe_ok hok
  have hresearch : session ∈ run.researchSessions first :=
    List.mem_of_mem_take (List.mem_of_mem_drop hsession)
  have hpositions := (Windows.mem_window (run.researchSessions_nodup first) hresearch).mp hsession
  subst hfinal
  rw [hstatus, idxOf_research hresearch]
  have hstop := stop_le h
  simp only [Bool.false_eq_true, if_false] at hpositions
  omega

end Chunk

lemma finalize_congr {factorState factorState' : Nat → HorizonState V C}
    (h : ∀ horizon ∈ run.horizons.horizons, factorState horizon = factorState' horizon) :
    run.finalize factorState = run.finalize factorState' :=
  mapM_congr fun horizon hhorizon => by rw [h horizon hhorizon]

/-- The chunks that are left at a position: they hold the sessions from there on, and the last
of them is not empty. -/
structure FactorRun.Remaining (run : FactorRun S I V C ε) (first before : Nat)
    (chunks : List (List S)) : Prop where
  flatten : chunks.flatten = (run.researchSessions first).drop before
  last : ∃ chunk, chunks.getLast? = some chunk ∧ chunk ≠ []

namespace FactorRun.Remaining
variable {before : Nat} {chunk : List S} {chunks : List (List S)}

lemma ne_nil_of_skip (h : run.Remaining first before ([] :: chunks)) : chunks ≠ [] := by
  rintro rfl
  obtain ⟨chunk, hlast, hne⟩ := h.last
  cases hlast
  exact hne rfl

lemma tail_last (h : run.Remaining first before (chunk :: chunks)) (hne : chunks ≠ []) :
    ∃ chunk, chunks.getLast? = some chunk ∧ chunk ≠ [] := by
  obtain ⟨last, hlast, hlastNe⟩ := h.last
  refine ⟨last, ?_, hlastNe⟩
  rwa [List.getLast?_cons_of_ne_nil hne] at hlast

lemma lt (h : run.Remaining first before chunks) :
    before < (run.researchSessions first).length := by
  obtain ⟨last, hlast, hne⟩ := h.last
  obtain ⟨session, hsession⟩ := List.exists_mem_of_ne_nil _ hne
  have hmem : session ∈ chunks.flatten :=
    List.mem_flatten.mpr ⟨last, List.mem_of_getLast? hlast, hsession⟩
  rw [h.flatten] at hmem
  have hpos := List.length_pos_of_mem hmem
  rw [List.length_drop] at hpos
  omega

lemma skip (h : run.Remaining first before ([] :: chunks)) : run.Remaining first before chunks :=
  ⟨h.flatten, h.tail_last h.ne_nil_of_skip⟩

lemma isChunk (h : run.Remaining first before (chunk :: chunks)) (hne : chunk ≠ []) :
    run.IsChunk first chunk before (before + chunk.length) chunks.isEmpty := by
  have hflatten := h.flatten
  rw [List.flatten_cons] at hflatten
  have hlength := congrArg List.length hflatten
  rw [List.length_append, List.length_drop] at hlength
  have hpos : 0 < chunk.length := List.length_pos_iff.mpr hne
  refine ⟨by omega, by omega, ?_, fun hempty => ?_⟩
  · rw [List.drop_take, ← hflatten, Nat.add_sub_cancel_left, List.take_left]
  · rw [List.isEmpty_iff] at hempty
    subst hempty
    rw [List.flatten_nil, List.length_nil] at hlength
    omega

lemma next (h : run.Remaining first before (chunk :: chunks)) (hne : chunks ≠ []) :
    run.Remaining first (before + chunk.length) chunks := by
  refine ⟨?_, h.tail_last hne⟩
  have hflatten := h.flatten
  rw [List.flatten_cons] at hflatten
  rw [← List.drop_drop, ← hflatten, List.drop_left]

end FactorRun.Remaining

variable [DecidableEq V]

/-- A chunk without a Research Session changes nothing. -/
lemma executeChunks_skip (chunks : List (List S)) (state : FactorContinuation S V C) :
    run.executeChunks ([] :: chunks) state = (do
      let outcomes ← run.executeChunks chunks state
      pure (⟨state, [], none⟩ :: outcomes)) := rfl

lemma executeChunks_cons {chunk : List S} {chunks : List (List S)} {before after : Nat}
    (h : run.IsChunk first chunk before after chunks.isEmpty) (factorState : Nat → HorizonState V C) :
    run.executeChunks (chunk :: chunks) ⟨run.pendingAt first before, factorState⟩ = (do
      let outcome ← run.chunkResult first before after chunks.isEmpty factorState
      let outcomes ← run.executeChunks chunks outcome.continuation
      pure (outcome :: outcomes)) := by
  have hne : chunk ≠ [] := by
    obtain ⟨session, hhead, _⟩ := h.head?
    rintro rfl
    cases hhead
  rw [FactorRun.executeChunks, if_neg hne, chunkSlice_eq h, ok_bind, executeChunk_eq h]

omit [DecidableEq V] in
/-- A chunk without a Research Session announces nothing. -/
lemma announced_skip {before : Nat} (h : before ≤ (run.researchSessions first).length) :
    (factorResolutionCoordinates run.horizons (run.researchSessions first) before before false :
      Except (ChunkError S I ε) _) = .ok [] := by
  have hboundary : (run.researchSessions first).Pairwise (· < ·) ∧ before ≤ before ∧
      before ≤ (run.researchSessions first).length ∧
      (false = true → before = (run.researchSessions first).length) :=
    ⟨run.market.sessions_sorted.sublist (List.drop_sublist _ _), le_rfl, h, nofun⟩
  have hempty : ∀ horizon, ((run.researchSessions first).take (before - horizon - 1)).drop
      (before - horizon - 1) = [] := by
    intro horizon
    rw [List.drop_eq_nil_iff, List.length_take]
    exact min_le_left _ _
  unfold factorResolutionCoordinates
  rw [require, if_pos hboundary, ok_bind]
  simp [hempty]

/-- Chunks that run to their end resolve their labels as announced. -/
theorem executeChunks_resolved {chunks : List (List S)} {before : Nat}
    {factorState : Nat → HorizonState V C} {outcomes : List (ChunkOutcome S V C)}
    (hchunks : run.Remaining first before chunks)
    (h : run.executeChunks chunks ⟨run.pendingAt first before, factorState⟩ = .ok outcomes) :
    run.Resolved first before factorState chunks outcomes := by
  induction chunks generalizing before factorState outcomes with
  | nil =>
    obtain ⟨_, hlast, _⟩ := hchunks.last
    cases hlast
  | cons chunk chunks ih =>
    by_cases hne : chunk = []
    · subst hne
      rw [executeChunks_skip, bind_ok_iff] at h
      obtain ⟨rest, hrest, hout⟩ := h
      cases hout
      have hresolved := ih hchunks.skip hrest
      have hempty : chunks.isEmpty = false := by simpa using hchunks.ne_nil_of_skip
      have hrestNe : rest ≠ [] := by
        rintro rfl
        obtain ⟨_, hlast, _⟩ := hresolved.summary
        cases hlast
      refine ⟨⟨?_, hresolved.announced⟩, hresolved.observable, hresolved.rows, ?_, ?_, ?_⟩
      · rw [hempty]
        exact announced_skip hchunks.lt.le
      · exact List.forall_mem_cons.mpr ⟨pendingAt_length run first before, hresolved.pending⟩
      · rw [List.dropLast_cons_of_ne_nil hrestNe]
        exact List.forall_mem_cons.mpr ⟨nofun, hresolved.censored⟩
      · rw [List.getLast?_cons_of_ne_nil hrestNe]
        exact hresolved.summary
    · have hchunk := hchunks.isChunk hne
      rw [executeChunks_cons hchunk, bind_ok_iff] at h
      obtain ⟨outcome, hresult, h⟩ := h
      obtain ⟨rest, hrest, hout⟩ := bind_ok_iff.mp h
      cases hout
      obtain ⟨hobservable, hcontinuation, hrows, hsummary⟩ := chunkResult_ok_iff.mp hresult
      have hannounced : (factorResolutionCoordinates run.horizons (run.researchSessions first)
          before (before + chunk.length) chunks.isEmpty : Except (ChunkError S I ε) _) =
          .ok (outcome.factorDailyObservations.map fun row => (row.horizon, row.session)) := by
        rw [announced_eq hchunk, hrows, windowRows_coordinates hobservable]
      by_cases hend : chunks = []
      · subst hend
        cases hrest
        refine ⟨⟨hannounced, rfl⟩, ?_, ?_, ?_, nofun, ?_⟩
        · intro horizon hhorizon
          rw [openSessions_eq hchunk, List.isEmpty_nil, if_pos rfl, List.append_nil]
          exact hobservable horizon hhorizon
        · intro horizon hhorizon
          rw [List.flatMap_singleton, hrows, filter_windowRows hhorizon, openSessions_eq hchunk,
            List.isEmpty_nil, if_pos rfl, List.append_nil]
        · intro other hother
          rw [List.mem_singleton.mp hother, hcontinuation]
          exact Nat.zero_le _
        · obtain ⟨values, hvalues, hfinalize⟩ := hsummary
          refine ⟨values, hvalues, ?_⟩
          rw [← hfinalize]
          exact finalize_congr fun horizon hhorizon => finalState_eq hchunk factorState hhorizon
      · have hfinal : chunks.isEmpty = false := by simpa using hend
        rw [hfinal] at hchunk hobservable hcontinuation hrows
        rw [hcontinuation] at hrest
        have hresolved := ih (hchunks.next hend) hrest
        have hrestNe : rest ≠ [] := by
          rintro rfl
          obtain ⟨_, hlast, _⟩ := hresolved.summary
          cases hlast
        refine ⟨⟨hannounced, hresolved.announced⟩, ?_, ?_, ?_, ?_, ?_⟩
        · intro horizon hhorizon session hsession
          rw [openSessions_eq hchunk, List.mem_append] at hsession
          rcases hsession with hwindow | hopen
          · exact hobservable horizon hhorizon session hwindow
          · exact hresolved.observable horizon hhorizon session hopen
        · intro horizon hhorizon
          rw [List.flatMap_cons, List.filter_append, hrows, filter_windowRows hhorizon,
            hresolved.rows horizon hhorizon, openSessions_eq hchunk, observations_append]
          rfl
        · refine List.forall_mem_cons.mpr ⟨?_, hresolved.pending⟩
          rw [hcontinuation]
          exact pendingAt_length run first _
        · rw [List.dropLast_cons_of_ne_nil hrestNe]
          refine List.forall_mem_cons.mpr ⟨?_, hresolved.censored⟩
          rw [hrows]
          exact windowRows_within hchunk rfl
        · rw [List.getLast?_cons_of_ne_nil hrestNe]
          obtain ⟨values, hvalues, hfinalize⟩ := hresolved.summary
          refine ⟨values, hvalues, ?_⟩
          rw [← hfinalize]
          exact finalize_congr fun horizon hhorizon => finalState_eq hchunk factorState hhorizon

/-- Chunks run to their end when every label is observable and the summary is computed. -/
theorem executeChunks_succeeds {chunks : List (List S)} {before : Nat}
    {factorState : Nat → HorizonState V C} (hchunks : run.Remaining first before chunks)
    (hobservable : ∀ horizon ∈ run.horizons.horizons,
      ∀ session ∈ run.openSessions first before horizon, run.Observable horizon session)
    (hsummary : ∃ values, run.finalize (run.finalState first before factorState) = .ok values) :
    ∃ outcomes, run.executeChunks chunks ⟨run.pendingAt first before, factorState⟩ =
      .ok outcomes := by
  induction chunks generalizing before factorState with
  | nil => exact ⟨[], rfl⟩
  | cons chunk chunks ih =>
    by_cases hne : chunk = []
    · subst hne
      obtain ⟨outcomes, hrest⟩ := ih hchunks.skip hobservable hsummary
      rw [executeChunks_skip, hrest]
      exact ⟨_, rfl⟩
    · have hchunk := hchunks.isChunk hne
      have hwindow : ∀ horizon ∈ run.horizons.horizons, ∀ session ∈
          run.window first before (before + chunk.length) chunks.isEmpty horizon,
          run.Observable horizon session := by
        intro horizon hhorizon session hsession
        refine hobservable horizon hhorizon session ?_
        rw [openSessions_eq hchunk]
        exact List.mem_append_left _ hsession
      obtain ⟨values, hvalues⟩ := hsummary
      rw [finalize_congr fun horizon hhorizon => finalState_eq hchunk factorState hhorizon] at hvalues
      rw [executeChunks_cons hchunk]
      by_cases hend : chunks = []
      · subst hend
        have hresult : run.chunkResult first before (before + chunk.length) true factorState =
            .ok ⟨⟨[], run.stateAfter first before (before + chunk.length) true factorState⟩,
              run.windowRows first before (before + chunk.length) true, some values⟩ :=
          chunkResult_ok_iff.mpr ⟨hwindow, rfl, rfl, values, rfl, hvalues⟩
        rw [List.isEmpty_nil, hresult]
        exact ⟨_, rfl⟩
      · have hfinal : chunks.isEmpty = false := by simpa using hend
        rw [hfinal] at hchunk hwindow hvalues ⊢
        have hresult : run.chunkResult first before (before + chunk.length) false factorState =
            .ok ⟨⟨run.pendingAt first (before + chunk.length),
              run.stateAfter first before (before + chunk.length) false factorState⟩,
              run.windowRows first before (before + chunk.length) false, none⟩ :=
          chunkResult_ok_iff.mpr ⟨hwindow, rfl, rfl, rfl⟩
        have hopen : ∀ horizon ∈ run.horizons.horizons,
            ∀ session ∈ run.openSessions first (before + chunk.length) horizon,
              run.Observable horizon session := by
          intro horizon hhorizon session hsession
          refine hobservable horizon hhorizon session ?_
          rw [openSessions_eq hchunk]
          exact List.mem_append_right _ hsession
        obtain ⟨outcomes, hrest⟩ := ih (hchunks.next hend) hopen ⟨values, hvalues⟩
        rw [hresult, ok_bind, hrest]
        exact ⟨_, rfl⟩

/-! ### The whole Run -/

/-- The chunks of a plan: they hold the Research Sessions, and the last of them is not empty. -/
abbrev FactorRun.IsPartition (run : FactorRun S I V C ε) (first : Nat)
    (chunks : List (List S)) : Prop :=
  run.Remaining first 0 chunks

omit [DecidableEq V] in
lemma empty_eq : (FactorContinuation.empty : FactorContinuation S V C) =
    ⟨run.pendingAt first 0, fun _ => .empty⟩ := by
  simp [FactorContinuation.empty, FactorRun.pendingAt, FactorRun.pendingBetween]

omit [DecidableEq V] in
lemma openSessions_zero (horizon : Nat) :
    run.openSessions first 0 horizon = run.researchSessions first := by
  simp [FactorRun.openSessions]

omit [DecidableEq V] in
/-- The rows of a Run are announced for one of its horizons and sessions. -/
lemma announced_mem {chunks : List (List S)} {before : Nat} {outcomes : List (ChunkOutcome S V C)}
    (h : run.Announced first before chunks outcomes) {row : FactorObservation S V}
    (hrow : row ∈ outcomes.flatMap ChunkOutcome.factorDailyObservations) :
    row.horizon ∈ run.horizons.horizons ∧ row.session ∈ run.researchSessions first := by
  induction chunks generalizing before outcomes with
  | nil =>
    rw [FactorRun.Announced] at h
    subst h
    cases hrow
  | cons chunk chunks ih =>
    cases outcomes with
    | nil => exact h.elim
    | cons outcome outcomes =>
      obtain ⟨hannounced, hrest⟩ := h
      rw [List.flatMap_cons, List.mem_append] at hrow
      rcases hrow with hhead | htail
      · unfold factorResolutionCoordinates at hannounced
        simp only [bind_ok_iff, pure_ok_iff] at hannounced
        obtain ⟨_, _, hrows⟩ := hannounced
        have hmem := List.mem_map_of_mem (f := fun row => (row.horizon, row.session)) hhead
        rw [← hrows] at hmem
        obtain ⟨horizon, hhorizon, hin⟩ := List.mem_flatMap.mp hmem
        obtain ⟨session, hsession, heq⟩ := List.mem_map.mp hin
        cases heq
        exact ⟨hhorizon, List.mem_of_mem_take (List.mem_of_mem_drop hsession)⟩
      · exact ih hrest htail

omit [DecidableEq V] in
/-- A coordinate is counted among the rows of its horizon. -/
lemma count_coordinates (rows : List (FactorObservation S V)) (horizon : Nat) (session : S) :
    (rows.map fun row => (row.horizon, row.session)).count (horizon, session) =
      ((rows.filter fun row => row.horizon = horizon).map fun row =>
        (row.horizon, row.session)).count (horizon, session) := by
  induction rows with
  | nil => rfl
  | cons row rows ih =>
    by_cases heq : row.horizon = horizon
    · rw [List.filter_cons_of_pos (by simpa using heq), List.map_cons, List.map_cons,
        List.count_cons, List.count_cons, ih]
    · have hne : (row.horizon, row.session) ≠ (horizon, session) := fun h =>
        heq (congrArg Prod.fst h)
      rw [List.filter_cons_of_neg (by simpa using heq), List.map_cons,
        List.count_cons_of_ne hne, ih]

/-- The summary that a Run hands out with its last chunk. -/
def factorSummary (outcomes : List (ChunkOutcome S V C)) : Option (List (HorizonSummary V C)) :=
  outcomes.getLast?.bind ChunkOutcome.factorSummary

/-- The rows of one horizon, over all chunks. -/
def horizonRows (outcomes : List (ChunkOutcome S V C)) (horizon : Nat) :
    List (FactorObservation S V) :=
  (outcomes.flatMap ChunkOutcome.factorDailyObservations).filter fun row => row.horizon = horizon

/-- Whatever its chunks are, a Run succeeds when every label is observable and its summary is
computed. Each chunk resolves what is announced for it, in that order; every label is resolved
once, and those beyond the Research Period in the final chunk; what is pending stays within its
bound. Each horizon has the observations of the whole market, and the summary is theirs. -/
theorem factor_chunks_resolve (run : FactorRun S I V C ε) (first : Nat) :
    (∀ chunks, run.IsPartition first chunks →
      ((∃ outcomes, run.executeChunks chunks .empty = .ok outcomes) ↔
        (∀ horizon ∈ run.horizons.horizons, ∀ session ∈ run.researchSessions first,
          run.Observable horizon session) ∧
        ∃ values, run.finalize (run.finalState first 0 fun _ => .empty) = .ok values)) ∧
    (∀ chunks outcomes, run.IsPartition first chunks →
      run.executeChunks chunks .empty = .ok outcomes →
      run.Announced first 0 chunks outcomes ∧
      (∀ horizon ∈ run.horizons.horizons, ∀ session ∈ run.researchSessions first,
        ((outcomes.flatMap ChunkOutcome.factorDailyObservations).map fun row =>
          (row.horizon, row.session)).count (horizon, session) = 1) ∧
      (∀ row ∈ outcomes.flatMap ChunkOutcome.factorDailyObservations,
        row.horizon ∈ run.horizons.horizons ∧ row.session ∈ run.researchSessions first) ∧
      (∀ outcome ∈ outcomes.dropLast, ∀ row ∈ outcome.factorDailyObservations,
        row.labelStatus = .withinResearchPeriod) ∧
      (∀ outcome ∈ outcomes, outcome.continuation.pendingAlpha.length ≤
        run.horizons.maxPendingAlphaSessions) ∧
      (∀ horizon ∈ run.horizons.horizons,
        horizonRows outcomes horizon = run.observations (run.researchSessions first) horizon) ∧
      ∃ values, factorSummary outcomes = some values ∧
        run.finalize (run.finalState first 0 fun _ => .empty) = .ok values) ∧
    (∀ chunks chunks' outcomes, run.IsPartition first chunks → run.IsPartition first chunks' →
      run.executeChunks chunks .empty = .ok outcomes →
      ∃ outcomes', run.executeChunks chunks' .empty = .ok outcomes' ∧
        (∀ horizon ∈ run.horizons.horizons,
          horizonRows outcomes' horizon = horizonRows outcomes horizon) ∧
        factorSummary outcomes' = factorSummary outcomes) := by
  have hresolved : ∀ {chunks outcomes}, run.IsPartition first chunks →
      run.executeChunks chunks .empty = .ok outcomes →
      run.Resolved first 0 (fun _ => .empty) chunks outcomes := by
    intro chunks outcomes hchunks hrun
    rw [@empty_eq _ _ _ _ _ _ _ run first] at hrun
    exact executeChunks_resolved hchunks hrun
  have hsucceeds : ∀ {chunks}, run.IsPartition first chunks →
      ((∃ outcomes, run.executeChunks chunks .empty = .ok outcomes) ↔
        (∀ horizon ∈ run.horizons.horizons, ∀ session ∈ run.researchSessions first,
          run.Observable horizon session) ∧
        ∃ values, run.finalize (run.finalState first 0 fun _ => .empty) = .ok values) := by
    intro chunks hchunks
    constructor
    · rintro ⟨outcomes, hrun⟩
      have hall := hresolved hchunks hrun
      obtain ⟨values, _, hvalues⟩ := hall.summary
      refine ⟨fun horizon hhorizon session hsession => ?_, values, hvalues⟩
      refine hall.observable horizon hhorizon session ?_
      rwa [openSessions_zero]
    · rintro ⟨hobservable, hsummary⟩
      rw [@empty_eq _ _ _ _ _ _ _ run first]
      refine executeChunks_succeeds hchunks (fun horizon hhorizon session hsession => ?_) hsummary
      rw [openSessions_zero] at hsession
      exact hobservable horizon hhorizon session hsession
  have hrows : ∀ {chunks outcomes}, run.IsPartition first chunks →
      run.executeChunks chunks .empty = .ok outcomes → ∀ horizon ∈ run.horizons.horizons,
        horizonRows outcomes horizon = run.observations (run.researchSessions first) horizon := by
    intro chunks outcomes hchunks hrun horizon hhorizon
    have hfiltered := (hresolved hchunks hrun).rows horizon hhorizon
    rwa [openSessions_zero] at hfiltered
  refine ⟨fun chunks => hsucceeds, fun chunks outcomes hchunks hrun => ?_,
    fun chunks chunks' outcomes hchunks hchunks' hrun => ?_⟩
  · have hall := hresolved hchunks hrun
    have hobservable := (hsucceeds hchunks).mp ⟨outcomes, hrun⟩
    refine ⟨hall.announced, fun horizon hhorizon session hsession => ?_,
      fun row => announced_mem hall.announced, hall.censored, hall.pending,
      hrows hchunks hrun, hall.summary⟩
    have hsessions := hrows hchunks hrun horizon hhorizon
    rw [horizonRows] at hsessions
    rw [count_coordinates, hsessions, observations_coordinates (hobservable.1 horizon hhorizon)]
    refine List.count_eq_one_of_mem ?_ (List.mem_map_of_mem hsession)
    exact (run.researchSessions_nodup first).map (Prod.mk_right_injective horizon)
  · obtain ⟨outcomes', hrun'⟩ :=
      (hsucceeds hchunks').mpr ((hsucceeds hchunks).mp ⟨outcomes, hrun⟩)
    refine ⟨outcomes', hrun', fun horizon hhorizon => ?_, ?_⟩
    · rw [hrows hchunks' hrun' horizon hhorizon, hrows hchunks hrun horizon hhorizon]
    · obtain ⟨values, hlast, hvalues⟩ := (hresolved hchunks hrun).summary
      obtain ⟨values', hlast', hvalues'⟩ := (hresolved hchunks' hrun').summary
      obtain rfl : values' = values := Except.ok.inj (hvalues'.symm.trans hvalues)
      exact hlast'.trans hlast.symm

end Runs

/-! ### Markets of eight sessions -/

instance [DecidableEq V] (run : FactorRun S I V C ε) (horizon : Nat) (session : S) :
    Decidable (run.Observable horizon session) :=
  inferInstanceAs (Decidable (∃ _, _ = _ ∧ _))

/-- A market of eight sessions in which no instrument has an Alpha value. -/
def emptyUniverse : FactorRun Nat Nat ℤ Unit Unit where
  horizons := .default
  arithmetic := wholeNumbers
  summaries :=
    { exact := fun value => value
      add := fun left right => left + right
      sub := fun left right => left - right
      smaller := fun left right => left.natAbs < right.natAbs
      isZero := fun value => value == 0
      fsumMean := fun values _ => .ok values.sum
      sqrt := fun _ => .ok 0
      divide := fun left right => left / right
      fraction := fun positive count => (positive / count : Nat) }
  digests :=
    { label := fun _ _ => ()
      source := fun _ _ => () }
  isFinite _ := true
  inRange value := -1 ≤ value ∧ value ≤ 1
  market :=
    { sessions := [0, 1, 2, 3, 4, 5, 6, 7]
      sessions_sorted := by decide
      adjustedOpen := fun _ _ => none
      tradingState := fun _ _ => none
      listedTo := fun _ => none }
  alpha :=
    { universeMembers := fun _ => []
      sorted := fun _ => .nil
      values := fun _ => ⟨[], fun _ => 0, .nil⟩
      members := fun _ => List.nil_sublist _ }
  effectiveLookback := 0

/-- Two instruments after a first session that is not researched; the second is suspended on the
fifth. -/
def suspendedInstrument : FactorRun Nat Nat ℤ Unit Unit :=
  { emptyUniverse with
    market :=
      { sessions := [0, 1, 2, 3, 4, 5, 6, 7]
        sessions_sorted := by decide
        adjustedOpen := fun session id =>
          if session = 4 ∧ id = 2 then none else some (session * id + 1 : Nat)
        tradingState := fun session id =>
          if session = 4 ∧ id = 2 then some .fullSessionSuspension else some .normal
        listedTo := fun _ => none }
    alpha :=
      { universeMembers := fun _ => [1, 2]
        sorted := fun _ => by decide
        values := fun session => ⟨[(1, 3), (2, session)], fun _ => 0, by simp⟩
        members := fun _ => by simp }
    effectiveLookback := 1 }

/-- Two plans of it, one with an empty warm-up chunk, give the same observations. -/
theorem factor_chunks_resolve_suspended : ∃ outcomes outcomes',
    suspendedInstrument.executeChunks [[], [1, 2, 3], [4, 5, 6, 7]] .empty = .ok outcomes ∧
    suspendedInstrument.executeChunks [[1], [2, 3, 4, 5, 6], [7]] .empty = .ok outcomes' ∧
    (∀ horizon ∈ [1, 5, 20], horizonRows outcomes' horizon = horizonRows outcomes horizon) ∧
    factorSummary outcomes' = factorSummary outcomes := by
  obtain ⟨hsucceeds, -, hsame⟩ := factor_chunks_resolve suspendedInstrument 1
  have hobservable : ∀ horizon ∈ suspendedInstrument.horizons.horizons,
      ∀ session ∈ suspendedInstrument.researchSessions 1,
        suspendedInstrument.Observable horizon session := by
    decide
  have hsummary : ∃ values, suspendedInstrument.finalize
      (suspendedInstrument.finalState 1 0 fun _ => .empty) = .ok values := by
    decide
  have hwarm : suspendedInstrument.IsPartition 1 [[], [1, 2, 3], [4, 5, 6, 7]] :=
    ⟨rfl, _, rfl, nofun⟩
  have hsingle : suspendedInstrument.IsPartition 1 [[1], [2, 3, 4, 5, 6], [7]] :=
    ⟨rfl, _, rfl, nofun⟩
  obtain ⟨outcomes, hrun⟩ := (hsucceeds _ hwarm).mpr ⟨hobservable, hsummary⟩
  obtain ⟨outcomes', hrun', hrows, htotal⟩ := hsame _ _ outcomes hwarm hsingle hrun
  exact ⟨outcomes, outcomes', hrun, hrun', hrows, htotal⟩

/-- Each chunk lists its rows horizon by horizon, so the rows of all chunks come in another order
when the chunks are others. -/
theorem row_order_depends_on_chunks :
    ∃ outcomes outcomes',
      emptyUniverse.executeChunks [[0, 1, 2, 3, 4, 5, 6, 7]] .empty = .ok outcomes ∧
      emptyUniverse.executeChunks [[0, 1, 2, 3, 4, 5, 6], [7]] .empty = .ok outcomes' ∧
      outcomes.flatMap ChunkOutcome.factorDailyObservations ≠
        outcomes'.flatMap ChunkOutcome.factorDailyObservations := by
  have hobservable : ∀ horizon ∈ emptyUniverse.horizons.horizons,
      ∀ session ∈ emptyUniverse.researchSessions 0, emptyUniverse.Observable horizon session := by
    decide
  have hsummary : ∃ values, emptyUniverse.finalize
      (emptyUniverse.finalState 0 0 fun _ => .empty) = .ok values := by
    decide
  have hrun : ∀ {chunks}, emptyUniverse.IsPartition 0 chunks → ∃ outcomes,
      emptyUniverse.executeChunks chunks .empty = .ok outcomes ∧
        emptyUniverse.Announced 0 0 chunks outcomes := by
    intro chunks hchunks
    rw [@empty_eq _ _ _ _ _ _ _ emptyUniverse 0]
    obtain ⟨outcomes, hok⟩ := executeChunks_succeeds hchunks
      (fun horizon hhorizon session hsession =>
        hobservable horizon hhorizon session (List.mem_of_mem_drop hsession)) hsummary
    exact ⟨outcomes, hok, (executeChunks_resolved hchunks hok).announced⟩
  have hwholePlan : emptyUniverse.IsPartition 0 [[0, 1, 2, 3, 4, 5, 6, 7]] :=
    ⟨rfl, _, rfl, nofun⟩
  have hsplitPlan : emptyUniverse.IsPartition 0 [[0, 1, 2, 3, 4, 5, 6], [7]] :=
    ⟨rfl, _, rfl, nofun⟩
  obtain ⟨outcomes, hok, hannounced⟩ := hrun hwholePlan
  obtain ⟨outcomes', hok', hannounced'⟩ := hrun hsplitPlan
  refine ⟨outcomes, outcomes', hok, hok', fun hsame => ?_⟩
  have hcoordinates := congrArg (List.map fun row => (row.horizon, row.session)) hsame
  cases outcomes with
  | nil => exact hannounced
  | cons whole rest =>
    obtain ⟨hwhole, rfl⟩ := hannounced
    cases outcomes' with
    | nil => exact hannounced'
    | cons left rest' =>
      obtain ⟨hleft, hannounced'⟩ := hannounced'
      cases rest' with
      | nil => exact hannounced'
      | cons right rest' =>
        obtain ⟨hright, rfl⟩ := hannounced'
        simp only [List.flatMap_cons, List.flatMap_nil, List.append_nil, List.map_append,
          ← Except.ok.inj hwhole, ← Except.ok.inj hleft, ← Except.ok.inj hright] at hcoordinates
        revert hcoordinates
        decide

end ThesisTrace.Factor
