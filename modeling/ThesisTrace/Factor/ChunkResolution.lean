import ThesisTrace.Library.FirstError
import ThesisTrace.Library.Windows
import ThesisTrace.Factor.Chunks

/-!
# Chunks resolve each label once

A chunk resolves the labels that `factorResolutionCoordinates` announces for it, on its slice as
on the whole market. Over the chunks of a Run every label is resolved once, and each horizon has
the same observations and the same summary whatever the chunks are.
-/

namespace ThesisTrace.Factor
open Transaction Strategy

variable {S I V C ε : Type} [LinearOrder I]

/-! ### Pending Alphas keep their values -/

/-- The compact form of the values of a session. -/
def compactForm (members : List I) (values : List (I × V)) : List (Option V) :=
  members.map fun member => values.lookup member

lemma lookup_none {values : List (I × V)} {member : I} (h : member ∉ values.map Prod.fst) :
    values.lookup member = none := by
  induction values with
  | nil => rfl
  | cons item items ih =>
    rw [List.map_cons, List.mem_cons, not_or] at h
    rw [List.lookup_cons, beq_false_of_ne h.1]
    exact ih h.2

lemma compactForm_cons_ne {members : List I} {item : I × V} {items : List (I × V)}
    (h : item.1 ∉ members) : compactForm members (item :: items) = compactForm members items := by
  refine List.map_congr_left fun member hmember => ?_
  have hne : member ≠ item.1 := fun heq => h (heq ▸ hmember)
  rw [List.lookup_cons, beq_false_of_ne hne]

lemma compactForm_full {values : List (I × V)}
    (hsorted : (values.map Prod.fst).Pairwise (· < ·)) :
    compactForm (values.map Prod.fst) values = values.map fun item => some item.2 := by
  induction values with
  | nil => rfl
  | cons item items ih =>
    obtain ⟨hfirst, hrest⟩ := List.pairwise_cons.mp hsorted
    have hitem : compactForm (items.map Prod.fst) (item :: items) =
        compactForm (items.map Prod.fst) items :=
      compactForm_cons_ne fun hmem => lt_irrefl _ (hfirst _ hmem)
    rw [List.map_cons, List.map_cons, ← ih hrest, ← hitem, compactForm, List.map_cons,
      List.lookup_cons_self]
    rfl

lemma compactValues_eq {members : List I} (hsorted : members.Pairwise (· < ·))
    {values : List (I × V)} (h : (values.map Prod.fst).Sublist members) :
    (compactValues members values : Except (ChunkError S I ε) _) =
      .ok (compactForm members values) := by
  induction members generalizing values with
  | nil =>
    cases values with
    | nil => rfl
    | cons => cases h
  | cons member members ih =>
    obtain ⟨hfirst, hrest⟩ := List.pairwise_cons.mp hsorted
    have hnotin : member ∉ members := fun hmem => lt_irrefl _ (hfirst _ hmem)
    cases values with
    | nil => rfl
    | cons item items =>
      rw [compactValues]
      by_cases heq : member = item.1
      · have hsublist : (items.map Prod.fst).Sublist members := by
          rw [List.map_cons, ← heq] at h
          exact List.cons_sublist_cons.mp h
        rw [if_pos heq, ih hrest hsublist]
        have hitem : compactForm members (item :: items) = compactForm members items :=
          compactForm_cons_ne (heq ▸ hnotin)
        simp only [compactForm, List.map_cons] at hitem ⊢
        rw [hitem, heq, List.lookup_cons_self]
        rfl
      · have hsublist : ((item :: items).map Prod.fst).Sublist members := by
          cases h with
          | cons _ h => exact h
          | cons_cons _ _ => exact absurd rfl heq
        have hlt : member < item.1 :=
          hfirst _ (hsublist.subset (by simp))
        rw [if_neg heq, if_pos hlt, ih hrest hsublist]
        have hnone : (item :: items).lookup member = none :=
          lookup_none fun hmem => hnotin (hsublist.subset hmem)
        simp only [compactForm, List.map_cons, hnone]
        rfl

lemma expandValues_compactForm {members : List I} (hsorted : members.Pairwise (· < ·))
    {values : List (I × V)} (h : (values.map Prod.fst).Sublist members) :
    expandValues members (compactForm members values) = values := by
  induction members generalizing values with
  | nil =>
    cases values with
    | nil => rfl
    | cons => cases h
  | cons member members ih =>
    obtain ⟨hfirst, hrest⟩ := List.pairwise_cons.mp hsorted
    have hnotin : member ∉ members := fun hmem => lt_irrefl _ (hfirst _ hmem)
    have hskip : (values.map Prod.fst).Sublist members →
        expandValues (member :: members) (compactForm (member :: members) values) = values := by
      intro hsublist
      have hnone : values.lookup member = none :=
        lookup_none fun hmem => hnotin (hsublist.subset hmem)
      have htail := ih hrest hsublist
      simp only [compactForm, expandValues, List.map_cons, hnone] at htail ⊢
      exact htail
    cases values with
    | nil => exact hskip (List.nil_sublist _)
    | cons item items =>
      rw [List.map_cons, List.cons_sublist_cons'] at h
      rcases h with hsublist | ⟨heq, hsublist⟩
      · exact hskip hsublist
      · obtain ⟨instrument, value⟩ := item
        obtain rfl : instrument = member := heq
        have htail := ih hrest hsublist
        have hitem : compactForm members ((instrument, value) :: items) =
            compactForm members items := compactForm_cons_ne hnotin
        rw [← hitem] at htail
        have hform : compactForm (instrument :: members) ((instrument, value) :: items) =
            some value :: compactForm members ((instrument, value) :: items) := by
          rw [compactForm, List.map_cons, List.lookup_cons_self]
          rfl
        rw [hform]
        exact congrArg ((instrument, value) :: ·) htail

/-! ### Labels on a slice -/

section Slices
variable [LinearOrder S] (b : Binary64 V ε) {market : MarketPanel S I V} {start stop : Nat}

omit [LinearOrder I] in
lemma slice_length (hstop : stop ≤ market.sessions.length) :
    (market.slice start stop).sessions.length = stop - start := by
  simp [MarketPanel.slice, hstop]

omit [LinearOrder I] in
lemma slice_getElem? {index : Nat} (h : start + index < stop ∨ stop = market.sessions.length) :
    (market.slice start stop).sessions[index]? = market.sessions[start + index]? := by
  simp only [MarketPanel.slice, List.getElem?_drop, List.getElem?_take]
  by_cases hlt : start + index < stop
  · rw [if_pos hlt]
  · rw [if_neg hlt, eq_comm, List.getElem?_eq_none_iff]
    omega

omit [LinearOrder I] in
/-- The label of a coordinate is that of the whole market, when the slice holds its exit or ends
with the market. -/
lemma prepareColumnarForwardLabels_slice {horizon index : Nat} (instrument : I)
    (hstop : stop ≤ market.sessions.length)
    (hexit : start + index + 1 + horizon < stop ∨ stop = market.sessions.length) :
    prepareColumnarForwardLabels b (market.slice start stop) horizon instrument index =
      prepareColumnarForwardLabels b market horizon instrument (start + index) := by
  have hcolumn : ∀ offset ≤ 1 + horizon,
      (market.slice start stop).sessions[offset + index]? =
        market.sessions[offset + (start + index)]? := by
    intro offset hoffset
    rw [slice_getElem? (by omega)]
    congr 1
    omega
  have hopen : ∀ offset ≤ 1 + horizon,
      adjustedOpens (market.slice start stop) instrument (offset + index) =
        adjustedOpens market instrument (offset + (start + index)) := by
    intro offset hoffset
    simp only [adjustedOpens, hcolumn offset hoffset]
    rfl
  have hreason : ∀ offset ≤ 1 + horizon,
      missingReason (market.slice start stop) instrument (offset + index) =
        missingReason market instrument (offset + (start + index)) := by
    intro offset hoffset
    simp only [missingReason, hcolumn offset hoffset]
    rfl
  have hwidth : index < (market.slice start stop).sessions.length - horizon - 1 ↔
      start + index < market.sessions.length - horizon - 1 := by
    rw [slice_length hstop]
    omega
  unfold prepareColumnarForwardLabels
  simp only [hwidth, hopen 1 (by omega), hopen (1 + horizon) le_rfl, hreason 1 (by omega),
    hreason (1 + horizon) le_rfl]

/-- A chunk observes a signal session as an evaluation of the whole market does. -/
theorem factorDayColumnar_slice (alphaBySession : S → AlphaSession I V)
    (hstop : stop ≤ market.sessions.length) (horizon : Nat) (signal : market.Position)
    (index : (market.slice start stop).Position) (hsignal : start + index.val = signal.val)
    (hexit : signal + 1 + horizon < stop ∨ stop = market.sessions.length) :
    factorDayColumnar b (market.slice start stop)
        (fun _ => alphaBySession (market.sessions.get signal)) horizon index =
      factorDayColumnar b market alphaBySession horizon signal := by
  have hindex : start + index.val < stop := by
    have hlt : index.val < (market.slice start stop).sessions.length := index.isLt
    have hlength : (market.slice start stop).sessions.length = stop - start := slice_length hstop
    omega
  have hsession : (market.slice start stop).sessions.get index = market.sessions.get signal := by
    have hget : (market.slice start stop).sessions[index.val]? =
        market.sessions[start + index.val]? := slice_getElem? (.inl hindex)
    rw [hsignal, List.getElem?_eq_getElem index.isLt, List.getElem?_eq_getElem signal.isLt] at hget
    exact Option.some.inj hget
  have hcells : ∀ alpha : I × V,
      prepareColumnarForwardLabels b (market.slice start stop) horizon alpha.1 index =
        prepareColumnarForwardLabels b market horizon alpha.1 signal := by
    intro alpha
    rw [prepareColumnarForwardLabels_slice b alpha.1 hstop (by omega), hsignal]
  have hentry : (market.slice start stop).sessions[index.val + 1]? =
      market.sessions[signal.val + 1]? := by
    rw [slice_getElem? (by omega)]
    congr 1
    omega
  have hexitSession : (market.slice start stop).sessions[index.val + 1 + horizon]? =
      market.sessions[signal.val + 1 + horizon]? := by
    rw [slice_getElem? (by omega)]
    congr 1
    omega
  unfold factorDayColumnar selectedCells
  simp only [hsession, hcells, hentry, hexitSession]

end Slices

/-! ### The loop over the horizons -/

/-- A filter whose elements would be dropped anyway. -/
lemma filter_map_filter {α β : Type*} {P : α → Bool} {Q : β → Bool} {f : α → β} {l : List α}
    (h : ∀ a ∈ l, Q (f a) → P a) : ((l.filter P).map f).filter Q = (l.map f).filter Q := by
  rw [List.filter_map, List.filter_map, List.filter_filter]
  congr 1
  refine List.filter_congr fun a ha => ?_
  cases hQ : (Q ∘ f) a with
  | false => rfl
  | true => simpa using h a ha hQ

section Loop
variable [LinearOrder S]

/-- A horizon that the chunk resolves at a session is not among those that stay open. -/
def staysOpen (calendar : List S) (last : Nat) (final : Bool) (horizons : List Nat) (session : S)
    (horizon : Nat) : Bool :=
  ¬(horizon ∈ horizons ∧ (final ∨ calendar.idxOf session + 1 + horizon ≤ last))

lemma filter_erase_staysOpen {calendar : List S} {last : Nat} {final : Bool} {horizon : Nat}
    {horizons : List Nat} {item : PendingAlpha S V} (hnodup : item.remainingHorizons.Nodup) :
    ((if resolvable calendar last final horizon item then
        item.remainingHorizons.erase horizon
      else item.remainingHorizons).filter
        (staysOpen calendar last final horizons item.session)) =
      item.remainingHorizons.filter
        (staysOpen calendar last final (horizon :: horizons) item.session) := by
  by_cases h : resolvable calendar last final horizon item
  · obtain ⟨hmem, hcondition⟩ := of_decide_eq_true h
    rw [if_pos h, hnodup.erase_eq_filter, List.filter_filter]
    refine List.filter_congr fun k hk => ?_
    by_cases heq : k = horizon
    · subst heq
      simp [staysOpen, hcondition]
    · simp [staysOpen, heq]
  · rw [if_neg h]
    refine List.filter_congr fun k hk => ?_
    by_cases heq : k = horizon
    · subst heq
      have hcondition : ¬(final ∨ calendar.idxOf item.session + 1 + k ≤ last) := fun hc =>
        h (decide_eq_true ⟨hk, hc⟩)
      simp [staysOpen, hcondition]
    · simp [staysOpen, heq]

/-- An Alpha after the turn of one horizon. -/
def dropHorizon (calendar : List S) (last : Nat) (final : Bool) (horizon : Nat)
    (item : PendingAlpha S V) : PendingAlpha S V :=
  if resolvable calendar last final horizon item then
    { item with
      remainingHorizons := item.remainingHorizons.erase horizon }
  else item

variable {calendar : List S} {last horizon : Nat} {final : Bool}

lemma resolveHorizon_eq (state : List (Nat × List S) × List (PendingAlpha S V)) :
    resolveHorizon calendar last final state horizon =
      (state.1 ++ [(horizon,
        (state.2.filter (resolvable calendar last final horizon)).map PendingAlpha.session)],
      state.2.map (dropHorizon calendar last final horizon)) := rfl

lemma dropHorizon_session (item : PendingAlpha S V) :
    (dropHorizon calendar last final horizon item).session = item.session := by
  unfold dropHorizon
  split <;> rfl

lemma dropHorizon_remaining (item : PendingAlpha S V) :
    (dropHorizon calendar last final horizon item).remainingHorizons =
      if resolvable calendar last final horizon item then
        item.remainingHorizons.erase horizon
      else item.remainingHorizons := by
  unfold dropHorizon
  split <;> rfl

lemma resolvable_dropHorizon {k : Nat} (h : k ≠ horizon) (item : PendingAlpha S V) :
    resolvable calendar last final k (dropHorizon calendar last final horizon item) =
      resolvable calendar last final k item := by
  have hmem : k ∈ (dropHorizon calendar last final horizon item).remainingHorizons ↔
      k ∈ item.remainingHorizons := by
    rw [dropHorizon_remaining]
    split
    · exact List.mem_erase_of_ne h
    · exact Iff.rfl
  simp only [resolvable, hmem, dropHorizon_session]

/-- The signal sessions of each horizon are read off the Alphas that were pending. -/
lemma foldl_resolveHorizon (calendar : List S) (last : Nat) (final : Bool) {horizons : List Nat}
    (hhorizons : horizons.Nodup) (acc : List (Nat × List S)) {pending : List (PendingAlpha S V)}
    (hpending : ∀ item ∈ pending, item.remainingHorizons.Nodup) :
    horizons.foldl (resolveHorizon calendar last final) (acc, pending) =
      (acc ++ horizons.map fun horizon => (horizon,
        (pending.filter (resolvable calendar last final horizon)).map PendingAlpha.session),
      pending.map fun item =>
        { item with
          remainingHorizons := item.remainingHorizons.filter
            (staysOpen calendar last final horizons item.session) }) := by
  induction horizons generalizing acc pending with
  | nil =>
    have hid : ∀ item : PendingAlpha S V, item.remainingHorizons.filter
        (staysOpen calendar last final [] item.session) = item.remainingHorizons := by
      intro item
      refine List.filter_eq_self.mpr fun k _ => ?_
      simp [staysOpen]
    simp [hid]
  | cons horizon horizons ih =>
    obtain ⟨hnotin, hnodup⟩ := List.nodup_cons.mp hhorizons
    have hdropped : ∀ item ∈ pending.map (dropHorizon calendar last final horizon),
        item.remainingHorizons.Nodup := by
      intro item hitem
      obtain ⟨before, hbefore, rfl⟩ := List.mem_map.mp hitem
      rw [dropHorizon_remaining]
      split
      · exact (hpending before hbefore).erase _
      · exact hpending before hbefore
    rw [List.foldl_cons, resolveHorizon_eq, ih hnodup _ hdropped]
    congr 1
    · rw [List.append_assoc, List.map_cons, List.singleton_append]
      congr 2
      refine List.map_congr_left fun k hk => ?_
      have hne : k ≠ horizon := fun heq => hnotin (heq ▸ hk)
      rw [List.filter_map, List.map_map]
      have hsame : resolvable calendar last final k ∘ dropHorizon calendar last final horizon =
          (resolvable calendar last final k : PendingAlpha S V → Bool) := by
        funext item
        exact resolvable_dropHorizon hne item
      rw [hsame]
      congr 1
      exact List.map_congr_left fun item _ => dropHorizon_session item
    · rw [List.map_map]
      refine List.map_congr_left fun item hitem => ?_
      rw [← filter_erase_staysOpen (hpending item hitem)]
      simp only [Function.comp_apply, dropHorizon_session, dropHorizon_remaining]
      unfold dropHorizon
      split <;> rfl

end Loop

/-! ### What is pending between two chunks -/

section Pending
variable [LinearOrder S] (run : FactorRun S I V C ε) (first : Nat)

/-- The Research Sessions of a Run, after its warm-up. -/
def FactorRun.researchSessions : List S := run.market.sessions.drop first

/-- The pending Alpha of a session. -/
def FactorRun.pendingItem (session : S) (remaining : List Nat) : PendingAlpha S V where
  session := session
  values := compactForm (run.alpha.universeMembers session) (run.alpha.values session).values
  coverageLoss := (run.alpha.values session).coverageLoss
  remainingHorizons := remaining

/-- The horizons whose labels exit after the first sessions of a Run. -/
def FactorRun.openHorizons (before : Nat) (session : S) : List Nat :=
  run.horizons.horizons.filter fun horizon =>
    before ≤ (run.researchSessions first).idxOf session + 1 + horizon

/-- The Alphas that are pending once a chunk has added its own. -/
def FactorRun.pendingBetween (before after : Nat) : List (PendingAlpha S V) :=
  (((run.researchSessions first).take after).map fun session =>
    run.pendingItem session (run.openHorizons first before session)).filter fun item =>
      item.remainingHorizons ≠ []

/-- The Alphas that are pending after the first sessions of a Run. -/
def FactorRun.pendingAt (before : Nat) : List (PendingAlpha S V) :=
  run.pendingBetween first before before

/-- The signal sessions that a chunk resolves for a horizon. -/
def FactorRun.window (before after : Nat) (final : Bool) (horizon : Nat) : List S :=
  ((run.researchSessions first).take (if final then (run.researchSessions first).length
    else after - horizon - 1)).drop (before - horizon - 1)

lemma HorizonSet.lt_maxPending {H : HorizonSet} {horizon : Nat} (h : horizon ∈ H.horizons) :
    horizon + 1 ≤ H.maxPendingAlphaSessions := by
  unfold HorizonSet.maxPendingAlphaSessions
  have hle : ∀ hs : List Nat, horizon ∈ hs → horizon ≤ hs.foldr max 0 := by
    intro hs hmem
    induction hs with
    | nil => cases hmem
    | cons k hs ih =>
      rcases List.mem_cons.mp hmem with rfl | hrest
      · exact le_max_left _ _
      · exact (ih hrest).trans (le_max_right _ _)
  have := hle _ h
  omega

lemma HorizonSet.nodup (H : HorizonSet) : H.horizons.Nodup := H.sorted.imp fun h => h.ne

lemma FactorRun.sessions_nodup : run.market.sessions.Nodup :=
  run.market.sessions_sorted.imp fun h => h.ne

lemma FactorRun.researchSessions_nodup : (run.researchSessions first).Nodup :=
  run.sessions_nodup.sublist (List.drop_sublist _ _)

variable {run first} in
lemma idxOf_research {session : S} (h : session ∈ run.researchSessions first) :
    run.market.sessions.idxOf session = first + (run.researchSessions first).idxOf session := by
  have hmem := List.mem_of_mem_drop h
  have hstart := (Windows.mem_drop_iff run.sessions_nodup hmem).mp h
  have hwindow : ((run.market.sessions.take run.market.sessions.length).drop first).idxOf session =
      run.market.sessions.idxOf session - first :=
    Windows.idxOf_window run.sessions_nodup hmem hstart (List.idxOf_lt_length_of_mem hmem)
  rw [List.take_length] at hwindow
  rw [FactorRun.researchSessions, hwindow]
  omega

variable {run first} in
lemma mem_pendingBetween {before after : Nat} {item : PendingAlpha S V}
    (h : item ∈ run.pendingBetween first before after) :
    item.session ∈ (run.researchSessions first).take after ∧
    item = run.pendingItem item.session (run.openHorizons first before item.session) ∧
    before ≤ (run.researchSessions first).idxOf item.session +
      run.horizons.maxPendingAlphaSessions := by
  obtain ⟨hmem, hopen⟩ := List.mem_filter.mp h
  obtain ⟨session, hsession, rfl⟩ := List.mem_map.mp hmem
  refine ⟨hsession, rfl, ?_⟩
  obtain ⟨horizon, hhorizon⟩ := List.exists_mem_of_ne_nil _ (of_decide_eq_true hopen)
  obtain ⟨hin, hle⟩ := List.mem_filter.mp hhorizon
  have hbound := HorizonSet.lt_maxPending hin
  have hle := of_decide_eq_true hle
  change before ≤ (run.researchSessions first).idxOf session + _
  omega

/-- No more than the largest horizon and one session wait for their labels. -/
theorem pendingAt_length (before : Nat) :
    (run.pendingAt first before).length ≤ run.horizons.maxPendingAlphaSessions := by
  have hsessions : ((run.pendingAt first before).map PendingAlpha.session).Sublist
      ((run.researchSessions first).take before) := by
    have hsublist : (run.pendingAt first before).Sublist _ := List.filter_sublist
    have hmap := hsublist.map PendingAlpha.session
    rw [List.map_map] at hmap
    have hid : (PendingAlpha.session ∘ fun session =>
        run.pendingItem session (run.openHorizons first before session)) = id := rfl
    rwa [hid, List.map_id] at hmap
  have hresearch := run.researchSessions_nodup first
  have hwindow : (run.pendingAt first before).map PendingAlpha.session ⊆
      ((run.researchSessions first).take before).drop
        (before - run.horizons.maxPendingAlphaSessions) := by
    intro session hsession
    obtain ⟨item, hitem, rfl⟩ := List.mem_map.mp hsession
    obtain ⟨htake, _, hbound⟩ := mem_pendingBetween hitem
    have hmem := List.mem_of_mem_take htake
    have hlt := (List.mem_take_iff_idxOf_lt hmem).mp htake
    exact (Windows.mem_window hresearch hmem).mpr ⟨by omega, hlt⟩
  have hnodup := hresearch.sublist (hsessions.trans (List.take_sublist _ _))
  have hlength := (List.subperm_of_subset hnodup hwindow).length_le
  simp only [List.length_map, List.length_drop, List.length_take] at hlength
  omega

lemma compactPendingAlpha_eq (session : S) :
    (compactPendingAlpha run.horizons (run.alpha.universeMembers session) session
      (run.alpha.values session) : Except (ChunkError S I ε) _) =
      .ok (run.pendingItem session run.horizons.horizons) := by
  have hmembers := run.alpha.members session
  have hsorted := run.alpha.sorted session
  unfold compactPendingAlpha
  by_cases hlength : (run.alpha.values session).values.length =
      (run.alpha.universeMembers session).length
  · have hfull : (run.alpha.values session).values.map Prod.fst =
        run.alpha.universeMembers session := hmembers.eq_of_length (by simpa using hlength)
    have hform := compactForm_full (hfull ▸ hsorted)
    rw [hfull] at hform
    simp only [if_pos hlength, require, if_pos hfull, ok_bind]
    rw [← hform]
    rfl
  · rw [if_neg hlength, compactValues_eq hsorted hmembers]
    rfl

lemma expandPendingAlpha_eq (session : S) (remaining : List Nat) :
    (expandPendingAlpha run.alpha (run.pendingItem session remaining) :
      Except (ChunkError S I ε) _) = .ok (session, run.alpha.values session) := by
  have hlength : (run.pendingItem session remaining).values.length =
      (run.alpha.universeMembers (run.pendingItem session remaining).session).length := by
    simp [FactorRun.pendingItem, compactForm]
  have hvalues := expandValues_compactForm (run.alpha.sorted session) (run.alpha.members session)
  have hrow : ∀ (row : AlphaSession I V) (values : List (I × V))
      (hsorted : values.Pairwise fun a b => a.1 < b.1), values = row.values →
      (⟨values, row.coverageLoss, hsorted⟩ : AlphaSession I V) = row := by
    rintro row _ _ rfl
    rfl
  unfold expandPendingAlpha
  simp only [require]
  rw [if_pos hlength]
  exact congrArg (fun row => Except.ok (session, row)) (hrow _ _ _ hvalues)

end Pending

/-! ### One chunk -/

section Chunk
variable [LinearOrder S] (run : FactorRun S I V C ε) (first : Nat)

/-- The Research Sessions between two positions, which a chunk evaluates. -/
structure FactorRun.IsChunk (chunk : List S) (before after : Nat) (final : Bool) : Prop where
  lt : before < after
  le : after ≤ (run.researchSessions first).length
  sessions : chunk = ((run.researchSessions first).take after).drop before
  final : final → after = (run.researchSessions first).length

variable {run first} {chunk : List S} {before after : Nat} {final : Bool}

namespace FactorRun.IsChunk
variable (h : run.IsChunk first chunk before after final)
include h

lemma mem_iff {session : S} (hmem : session ∈ run.researchSessions first) :
    session ∈ chunk ↔ before ≤ (run.researchSessions first).idxOf session ∧
      (run.researchSessions first).idxOf session < after := by
  rw [h.sessions]
  exact Windows.mem_window (run.researchSessions_nodup first) hmem

lemma mem_research {session : S} (hmem : session ∈ chunk) :
    session ∈ run.researchSessions first := by
  rw [h.sessions] at hmem
  exact List.mem_of_mem_take (List.mem_of_mem_drop hmem)

lemma length : chunk.length = after - before := by
  have hle := h.le
  rw [h.sessions, List.length_drop, List.length_take]
  omega

lemma head? : ∃ session, chunk.head? = some session ∧
    session ∈ run.researchSessions first ∧
    (run.researchSessions first).idxOf session = before := by
  have hlt : before < (run.researchSessions first).length := h.lt.trans_le h.le
  refine ⟨(run.researchSessions first)[before], ?_, List.getElem_mem hlt,
    (run.researchSessions_nodup first).idxOf_getElem before hlt⟩
  rw [h.sessions, List.head?_drop, List.getElem?_take, if_pos h.lt, List.getElem?_eq_getElem hlt]

lemma getLast? : ∃ session, chunk.getLast? = some session ∧
    session ∈ run.researchSessions first ∧
    (run.researchSessions first).idxOf session = after - 1 := by
  have hlt' := h.lt
  have hle := h.le
  have hlt : after - 1 < (run.researchSessions first).length := by omega
  refine ⟨(run.researchSessions first)[after - 1], ?_, List.getElem_mem hlt,
    (run.researchSessions_nodup first).idxOf_getElem (after - 1) hlt⟩
  rw [h.sessions, List.getLast?_drop, List.getLast?_take, List.length_take, if_neg (by omega),
    if_neg (by omega), List.getElem?_eq_getElem hlt]
  rfl

end FactorRun.IsChunk

/-- Where the slice of a chunk starts. -/
def FactorRun.sliceStart (run : FactorRun S I V C ε) (first before : Nat) : Nat :=
  first + before - max run.effectiveLookback (max run.horizons.maxPendingAlphaSessions 2)

/-- The slice of a chunk. -/
def FactorRun.chunkMarket (run : FactorRun S I V C ε) (first before after : Nat) :
    MarketPanel S I V :=
  run.market.slice (run.sliceStart first before) (first + after)

/-- The position in the slice of a session that is pending or new. -/
lemma slice_idxOf {session : S} (hmem : session ∈ run.researchSessions first)
    (hstart : before ≤ (run.researchSessions first).idxOf session +
      run.horizons.maxPendingAlphaSessions)
    (hstop : (run.researchSessions first).idxOf session < after) :
    session ∈ (run.chunkMarket first before after).sessions ∧
    run.sliceStart first before + (run.chunkMarket first before after).sessions.idxOf session =
      first + (run.researchSessions first).idxOf session := by
  have hmarket := List.mem_of_mem_drop hmem
  have hindex := idxOf_research hmem
  have hle : run.sliceStart first before ≤ run.market.sessions.idxOf session := by
    unfold FactorRun.sliceStart
    omega
  have hlt : run.market.sessions.idxOf session < first + after := by omega
  refine ⟨(Windows.mem_window run.sessions_nodup hmarket).mpr ⟨hle, hlt⟩, ?_⟩
  have hwindow := Windows.idxOf_window run.sessions_nodup hmarket hle hlt
  change _ + ((run.market.sessions.take (first + after)).drop
    (run.sliceStart first before)).idxOf session = _
  omega

variable (h : run.IsChunk first chunk before after final)
include h

lemma chunkSlice_eq : run.chunkSlice chunk = .ok (run.chunkMarket first before after) := by
  obtain ⟨head, hhead, hheadMem, hheadIndex⟩ := h.head?
  obtain ⟨last, hlast, hlastMem, hlastIndex⟩ := h.getLast?
  have hmem : head ∈ run.market.sessions ∧ last ∈ run.market.sessions :=
    ⟨List.mem_of_mem_drop hheadMem, List.mem_of_mem_drop hlastMem⟩
  have hlt := h.lt
  have hstop : run.market.sessions.idxOf last + 1 = first + after := by
    rw [idxOf_research hlastMem, hlastIndex]
    omega
  unfold FactorRun.chunkSlice
  rw [hhead, hlast]
  simp only [found, ok_bind, require, if_pos hmem]
  rw [hstop, idxOf_research hheadMem, hheadIndex]
  rfl

lemma stop_le : first + after ≤ run.market.sessions.length := by
  have hle := h.le
  have hlt := h.lt
  rw [FactorRun.researchSessions, List.length_drop] at hle
  omega

/-- The new Alphas join the pending ones. -/
lemma pendingAt_append : run.pendingAt first before ++
      chunk.map (fun session => run.pendingItem session run.horizons.horizons) =
    run.pendingBetween first before after := by
  have hsplit : (run.researchSessions first).take after =
      (run.researchSessions first).take before ++ chunk := by
    rw [h.sessions]
    conv_lhs => rw [← List.take_append_drop before ((run.researchSessions first).take after),
      List.take_take, min_eq_left h.lt.le]
  have hnew : (chunk.map fun session =>
      run.pendingItem session (run.openHorizons first before session)) =
      chunk.map fun session => run.pendingItem session run.horizons.horizons := by
    refine List.map_congr_left fun session hsession => ?_
    have hmem := h.mem_research hsession
    have hle := ((h.mem_iff hmem).mp hsession).1
    have hopen : run.openHorizons first before session = run.horizons.horizons := by
      refine List.filter_eq_self.mpr fun horizon _ => decide_eq_true ?_
      omega
    rw [hopen]
  rw [FactorRun.pendingBetween, hsplit, List.map_append, List.filter_append, hnew]
  congr 1
  refine (List.filter_eq_self.mpr fun item hitem => ?_).symm
  obtain ⟨session, _, rfl⟩ := List.mem_map.mp hitem
  exact decide_eq_true run.horizons.nonempty

/-- Where a session stands in the slice, against the last session of the chunk. -/
lemma slice_reaches {session last : S} (hmem : session ∈ run.researchSessions first)
    (hstart : before ≤ (run.researchSessions first).idxOf session +
      run.horizons.maxPendingAlphaSessions)
    (hstop : (run.researchSessions first).idxOf session < after)
    (hlastMem : last ∈ run.researchSessions first)
    (hlast : (run.researchSessions first).idxOf last = after - 1) (offset : Nat) :
    (run.chunkMarket first before after).sessions.idxOf session + offset ≤
      (run.chunkMarket first before after).sessions.idxOf last ↔
    (run.researchSessions first).idxOf session + offset < after := by
  have hlt := h.lt
  have hsession := (slice_idxOf hmem hstart hstop).2
  have hlastStart : before ≤ (run.researchSessions first).idxOf last +
      run.horizons.maxPendingAlphaSessions := by omega
  have hlastStop : (run.researchSessions first).idxOf last < after := by omega
  have hlastIndex := (slice_idxOf hlastMem hlastStart hlastStop).2
  omega

/-- Whether the chunk resolves a label, by the positions of its session and of the chunk. -/
lemma resolvable_iff {last : S} (hlastMem : last ∈ run.researchSessions first)
    (hlast : (run.researchSessions first).idxOf last = after - 1) {horizon : Nat}
    (hhorizon : horizon ∈ run.horizons.horizons) {session : S}
    (hmem : session ∈ (run.researchSessions first).take after) :
    resolvable (run.chunkMarket first before after).sessions
      ((run.chunkMarket first before after).sessions.idxOf last) final horizon (run.pendingItem session (run.openHorizons first before session)) ↔
    before - horizon - 1 ≤ (run.researchSessions first).idxOf session ∧
      (run.researchSessions first).idxOf session <
        if final then (run.researchSessions first).length else after - horizon - 1 := by
  have hresearch := List.mem_of_mem_take hmem
  have hlt := (List.mem_take_iff_idxOf_lt hresearch).mp hmem
  have hbound := HorizonSet.lt_maxPending hhorizon
  have hopen : horizon ∈ run.openHorizons first before session ↔
      before ≤ (run.researchSessions first).idxOf session + 1 + horizon := by
    simp [FactorRun.openHorizons, hhorizon]
  simp only [resolvable, decide_eq_true_eq, FactorRun.pendingItem, hopen]
  by_cases hbefore : before ≤ (run.researchSessions first).idxOf session + 1 + horizon
  · have hreaches := slice_reaches h hresearch (by omega) hlt hlastMem hlast (1 + horizon)
    rw [← Nat.add_assoc, ← Nat.add_assoc] at hreaches
    rw [hreaches]
    have hlength := List.idxOf_lt_length_of_mem hresearch
    cases final
    · simp only [Bool.false_eq_true, false_or, if_false]
      omega
    · simp only [true_or, and_true, if_true]
      omega
  · simp only [hbefore, false_and, false_iff]
    omega

/-- The signal sessions of a horizon. -/
lemma resolved_sessions {last : S} (hlastMem : last ∈ run.researchSessions first)
    (hlast : (run.researchSessions first).idxOf last = after - 1) {horizon : Nat}
    (hhorizon : horizon ∈ run.horizons.horizons) :
    ((run.pendingBetween first before after).filter (resolvable
      (run.chunkMarket first before after).sessions
      ((run.chunkMarket first before after).sessions.idxOf last) final horizon)).map
        PendingAlpha.session = run.window first before after final horizon := by
  have hid : (PendingAlpha.session ∘ fun session =>
      run.pendingItem session (run.openHorizons first before session)) = id := rfl
  rw [FactorRun.pendingBetween, List.filter_filter, List.filter_map, List.map_map, hid, List.map_id,
    FactorRun.window, ← Windows.filter_window (run.researchSessions_nodup first)]
  have hsplit : ∀ P : S → Bool, (run.researchSessions first).filter P =
      ((run.researchSessions first).take after).filter P ++
        ((run.researchSessions first).drop after).filter P := by
    intro P
    rw [← List.filter_append, List.take_append_drop]
  rw [hsplit]
  have hrest : ((run.researchSessions first).drop after).filter (fun session =>
      before - horizon - 1 ≤ (run.researchSessions first).idxOf session ∧
        (run.researchSessions first).idxOf session <
          if final then (run.researchSessions first).length else after - horizon - 1) = [] := by
    refine List.filter_eq_nil_iff.mpr fun session hsession => ?_
    have hmem := List.mem_of_mem_drop hsession
    have hle := (Windows.mem_drop_iff (run.researchSessions_nodup first) hmem).mp hsession
    have hlt := List.idxOf_lt_length_of_mem hmem
    simp only [decide_eq_true_eq, not_and]
    cases final
    · simp only [Bool.false_eq_true, if_false]
      omega
    · have := h.final rfl
      omega
  rw [hrest, List.append_nil]
  refine List.filter_congr fun session hsession => ?_
  have hiff := resolvable_iff h hlastMem hlast hhorizon hsession
  rw [Function.comp_apply, Bool.eq_iff_iff, Bool.and_eq_true, hiff, decide_eq_true_eq,
    decide_eq_true_eq]
  refine ⟨And.left, fun hwindow => ⟨hwindow, ?_⟩⟩
  exact List.ne_nil_of_mem (of_decide_eq_true (hiff.mpr hwindow)).1

/-- The horizons of a session that stay open after the chunk. -/
lemma filter_staysOpen {last : S} (hlastMem : last ∈ run.researchSessions first)
    (hlast : (run.researchSessions first).idxOf last = after - 1) {session : S}
    (hmem : session ∈ (run.researchSessions first).take after) :
    (run.openHorizons first before session).filter (staysOpen
      (run.chunkMarket first before after).sessions
      ((run.chunkMarket first before after).sessions.idxOf last) final run.horizons.horizons
      session) = if final then [] else run.openHorizons first after session := by
  have hresearch := List.mem_of_mem_take hmem
  have hlt := (List.mem_take_iff_idxOf_lt hresearch).mp hmem
  have hbefore := h.lt
  have hopen : ∀ horizon ∈ run.horizons.horizons,
      (staysOpen (run.chunkMarket first before after).sessions
          ((run.chunkMarket first before after).sessions.idxOf last) final
          run.horizons.horizons session horizon = true ∧
        before ≤ (run.researchSessions first).idxOf session + 1 + horizon) ↔
      (final = false ∧ after ≤ (run.researchSessions first).idxOf session + 1 + horizon) := by
    intro horizon hhorizon
    have hbound := HorizonSet.lt_maxPending hhorizon
    by_cases hle : before ≤ (run.researchSessions first).idxOf session + 1 + horizon
    · have hreaches := slice_reaches h hresearch (by omega) hlt hlastMem hlast (1 + horizon)
      rw [← Nat.add_assoc, ← Nat.add_assoc] at hreaches
      simp only [staysOpen, decide_eq_true_eq, hhorizon, true_and, hreaches, not_or, hle, and_true]
      cases final <;> simp
    · simp only [hle, and_false, false_iff, not_and]
      omega
  rw [FactorRun.openHorizons, List.filter_filter]
  cases final with
  | true =>
    refine List.filter_eq_nil_iff.mpr fun horizon hhorizon => ?_
    rw [Bool.and_eq_true, decide_eq_true_eq, hopen horizon hhorizon]
    simp
  | false =>
    refine List.filter_congr fun horizon hhorizon => ?_
    rw [Bool.eq_iff_iff, Bool.and_eq_true, decide_eq_true_eq, decide_eq_true_eq,
      hopen horizon hhorizon]
    simp

/-- What stays pending after the chunk. -/
lemma resolved_pending {last : S} (hlastMem : last ∈ run.researchSessions first)
    (hlast : (run.researchSessions first).idxOf last = after - 1) :
    ((run.pendingBetween first before after).map fun item =>
      { item with
        remainingHorizons := item.remainingHorizons.filter (staysOpen
          (run.chunkMarket first before after).sessions
          ((run.chunkMarket first before after).sessions.idxOf last) final
          run.horizons.horizons item.session) }).filter
        (fun item => item.remainingHorizons ≠ []) =
    if final then [] else run.pendingAt first after := by
  rw [FactorRun.pendingBetween, filter_map_filter, List.map_map]
  · have hmap : ((run.researchSessions first).take after).map _ =
        ((run.researchSessions first).take after).map fun session => run.pendingItem session
          (if final then [] else run.openHorizons first after session) :=
      List.map_congr_left fun session hsession =>
        congrArg (run.pendingItem session) (filter_staysOpen h hlastMem hlast hsession)
    refine (congrArg _ hmap).trans ?_
    cases final with
    | true =>
      refine List.filter_eq_nil_iff.mpr fun item hitem => ?_
      obtain ⟨session, _, rfl⟩ := List.mem_map.mp hitem
      simp [FactorRun.pendingItem]
    | false => rfl
  · intro item _ hopen
    refine decide_eq_true fun hnone => ?_
    rw [decide_eq_true_eq] at hopen
    exact hopen (by rw [hnone, List.filter_nil])

/-- The factor observation of a label on the whole market. -/
def FactorRun.observe (run : FactorRun S I V C ε) (horizon : Nat) (session : S) :
    Except (ChunkError S I ε) (FactorObservation S V) :=
  if hsession : run.market.sessions.idxOf session < run.market.sessions.length then
    (factorDayColumnar run.arithmetic run.market run.alpha.values horizon
      ⟨run.market.sessions.idxOf session, hsession⟩).mapError .factor
  else .error .missingSession

/-- The labels of a window are those of the whole market. -/
lemma resolveSession_eq {horizon : Nat} {session : S}
    (hhorizon : horizon ∈ run.horizons.horizons)
    (hwindow : session ∈ run.window first before after final horizon)
    {matrix : List (S × AlphaSession I V)} (hmatrix : ∀ row ∈ matrix, row.2 = run.alpha.values row.1)
    (hmem : ∃ row ∈ matrix, row.1 = session) :
    run.resolveSession (run.chunkMarket first before after) matrix horizon session =
      run.observe horizon session := by
  have hresearch : session ∈ run.researchSessions first :=
    List.mem_of_mem_take (List.mem_of_mem_drop hwindow)
  have hpositions := (Windows.mem_window (run.researchSessions_nodup first) hresearch).mp hwindow
  have hlength := List.idxOf_lt_length_of_mem hresearch
  have hbound := HorizonSet.lt_maxPending hhorizon
  have hlt : (run.researchSessions first).idxOf session < after := by
    have hfinal := h.final
    cases final
    · simp only [Bool.false_eq_true, if_false] at hpositions
      omega
    · exact hlength.trans_le (hfinal rfl).ge
  have hstart : before ≤ (run.researchSessions first).idxOf session +
      run.horizons.maxPendingAlphaSessions := by omega
  obtain ⟨hslice, hindex⟩ := slice_idxOf hresearch hstart hlt
  obtain ⟨row, hfind, hrow⟩ : ∃ row, matrix.find? (fun row => row.1 = session) = some row ∧
      row.2 = run.alpha.values session := by
    obtain ⟨row, hin, heq⟩ := hmem
    have hsome : (matrix.find? fun row => row.1 = session).isSome :=
      List.find?_isSome.mpr ⟨row, hin, by simpa using heq⟩
    obtain ⟨found, hfound⟩ := Option.isSome_iff_exists.mp hsome
    refine ⟨found, hfound, ?_⟩
    have hsession : found.1 = session := by simpa using List.find?_some hfound
    rw [hmatrix found (List.mem_of_find?_eq_some hfound), hsession]
  have hmarket : run.market.sessions.idxOf session < run.market.sessions.length :=
    List.idxOf_lt_length_of_mem (List.mem_of_mem_drop hresearch)
  unfold FactorRun.resolveSession FactorRun.observe
  rw [hfind, dif_pos hmarket]
  simp only [found, ok_bind]
  rw [dif_pos (List.idxOf_lt_length_of_mem hslice), hrow]
  have hget : run.market.sessions.get ⟨run.market.sessions.idxOf session, hmarket⟩ = session := by
    rw [List.get_eq_getElem, List.getElem_idxOf]
  have hresearchIndex := idxOf_research hresearch
  have hexit : run.market.sessions.idxOf session + 1 + horizon < first + after ∨
      first + after = run.market.sessions.length := by
    have hfinal := h.final
    cases final
    · simp only [Bool.false_eq_true, if_false] at hpositions
      omega
    · right
      have hafter := hfinal rfl
      have hlt' := h.lt
      rw [hafter, FactorRun.researchSessions, List.length_drop]
      rw [hafter, FactorRun.researchSessions, List.length_drop] at hlt'
      omega
  have hday := factorDayColumnar_slice run.arithmetic run.alpha.values (stop_le h) horizon
    ⟨run.market.sessions.idxOf session, hmarket⟩
    ⟨(run.chunkMarket first before after).sessions.idxOf session,
      List.idxOf_lt_length_of_mem hslice⟩ (hindex.trans hresearchIndex.symm) hexit
  rw [hget] at hday
  exact congrArg _ hday

/-- The expanded Alphas of a chunk. -/
def FactorRun.matrixRows (run : FactorRun S I V C ε) (first before after : Nat) :
    List (S × AlphaSession I V) :=
  (run.pendingBetween first before after).map fun item =>
    (item.session, run.alpha.values item.session)

variable [DecidableEq V]

/-- What a chunk comes to: the labels of its windows on the whole market. -/
def FactorRun.chunkResult (run : FactorRun S I V C ε) (first before after : Nat) (final : Bool)
    (factorState : Nat → HorizonState V C) : Except (ChunkError S I ε) (ChunkOutcome S V C) := do
  let daily ← run.horizons.horizons.mapM fun horizon => do
    let days ← (run.window first before after final horizon).mapM (run.observe horizon)
    pure (horizon, days)
  let rows ← validateFactorObservations run.isFinite run.inRange run.arithmetic.difference
    (daily.flatMap Prod.snd)
  let factorState := run.advanceFactorState factorState daily
  let summary ←
    if final then
      some <$> (run.horizons.horizons.mapM fun horizon =>
        finalizeHorizon run.summaries horizon (factorState horizon)).mapError .summary
    else pure none
  pure
    { continuation := ⟨if final then [] else run.pendingAt first after, factorState⟩
      factorDailyObservations := rows
      factorSummary := summary }

/-- A chunk computes the labels of its windows, and nothing else of it fails but the checks of
the observations and the arithmetic of the summary. -/
theorem executeChunk_eq (factorState : Nat → HorizonState V C) :
    run.executeChunk (run.chunkMarket first before after) chunk final
        ⟨run.pendingAt first before, factorState⟩ =
      run.chunkResult first before after final factorState := by
  obtain ⟨last, hlast, hlastMem, hlastIndex⟩ := h.getLast?
  have hinside : ∀ session ∈ chunk, session ∈ (run.chunkMarket first before after).sessions := by
    intro session hsession
    have hmem := h.mem_research hsession
    have hpositions := (h.mem_iff hmem).mp hsession
    have hstart : before ≤ (run.researchSessions first).idxOf session +
        run.horizons.maxPendingAlphaSessions := by omega
    exact (slice_idxOf hmem hstart hpositions.2).1
  have hcompact : (chunk.mapM fun session =>
      (compactPendingAlpha run.horizons (run.alpha.universeMembers session) session
        (run.alpha.values session) : Except (ChunkError S I ε) _)) =
      .ok (chunk.map fun session => run.pendingItem session run.horizons.horizons) :=
    mapM_ok fun session _ => compactPendingAlpha_eq run session
  have hbound : (run.pendingBetween first before after).length ≤
      run.horizons.maxPendingAlphaSessions + chunk.length := by
    rw [← pendingAt_append h, List.length_append, List.length_map]
    have := pendingAt_length run first before
    omega
  have hexpand : (run.pendingBetween first before after).mapM (expandPendingAlpha run.alpha) =
      (.ok (run.matrixRows first before after) : Except (ChunkError S I ε) _) := by
    refine mapM_ok fun item hitem => ?_
    obtain ⟨_, hform, _⟩ := mem_pendingBetween hitem
    rw [hform]
    exact expandPendingAlpha_eq run _ _
  have hrows : ∀ row ∈ run.matrixRows first before after,
      row.1 ∈ (run.chunkMarket first before after).sessions := by
    intro row hrow
    obtain ⟨item, hitem, rfl⟩ := List.mem_map.mp hrow
    obtain ⟨htake, _, hstart⟩ := mem_pendingBetween hitem
    have hmem := List.mem_of_mem_take htake
    exact (slice_idxOf hmem hstart ((List.mem_take_iff_idxOf_lt hmem).mp htake)).1
  have hnodup : ∀ item ∈ run.pendingBetween first before after, item.remainingHorizons.Nodup := by
    intro item hitem
    obtain ⟨_, hform, _⟩ := mem_pendingBetween hitem
    rw [hform]
    exact run.horizons.nodup.filter _
  have hdaily : ∀ horizon ∈ run.horizons.horizons, (do
      let days ← (((run.pendingBetween first before after).filter (resolvable
        (run.chunkMarket first before after).sessions
        ((run.chunkMarket first before after).sessions.idxOf last) final horizon)).map
          PendingAlpha.session).mapM
        (run.resolveSession (run.chunkMarket first before after)
          ((run.matrixRows first before after).mergeSort fun x y =>
            (run.chunkMarket first before after).sessions.idxOf x.1 ≤
              (run.chunkMarket first before after).sessions.idxOf y.1) horizon)
      pure (horizon, days)) = (do
      let days ← (run.window first before after final horizon).mapM (run.observe horizon)
      pure (horizon, days)) := by
    intro horizon hhorizon
    have hsessions := resolved_sessions h hlastMem hlastIndex hhorizon
    rw [hsessions, mapM_congr fun session hsession => resolveSession_eq h hhorizon hsession ?_ ?_]
    · intro row hrow
      obtain ⟨item, _, rfl⟩ := List.mem_map.mp ((List.mergeSort_perm _ _).subset hrow)
      rfl
    · rw [← hsessions] at hsession
      obtain ⟨item, hitem, hsame⟩ := List.mem_map.mp hsession
      exact ⟨_, (List.mergeSort_perm _ _).symm.subset
        (List.mem_map_of_mem (List.mem_of_mem_filter hitem)), hsame⟩
  have hpending : (if final then [] else run.pendingAt first after).length ≤
      run.horizons.maxPendingAlphaSessions := by
    split
    · exact Nat.zero_le _
    · exact pendingAt_length run first after
  unfold FactorRun.executeChunk FactorRun.chunkResult
  simp only [require]
  rw [if_pos hinside, ok_bind, hcompact, ok_bind, pendingAt_append h, if_pos hbound, ok_bind,
    hexpand, ok_bind, if_pos hrows, ok_bind, hlast]
  simp only [found, ok_bind]
  rw [foldl_resolveHorizon _ _ _ run.horizons.nodup [] hnodup]
  dsimp only
  rw [List.nil_append, List.mapM_map]
  simp only [Function.comp_def]
  rw [mapM_congr hdaily, resolved_pending h hlastMem hlastIndex, if_pos hpending]
  cases final with
  | true => rfl
  | false => rfl

end Chunk

end ThesisTrace.Factor
