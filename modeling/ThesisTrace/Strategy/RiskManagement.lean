import ThesisTrace.Strategy.Session

/-!
# Composing risk limits with a proposal

The built-in risk module turns its position limits and its exposure cap, together with the
proposal of the portfolio module, into the target of the Close. It only ever tightens them.
-/

namespace ThesisTrace.Risk
open Strategy

abbrev PositionLimits := OrderedMap InstrumentId ℕ

/-- `limits[item] = min(maximum, limits.get(item, maximum))`. -/
def tightenLimit (limits : PositionLimits) (row : Sigma fun _ : InstrumentId => ℕ) :
    PositionLimits :=
  OrderedMap.set limits row.1 (min row.2 ((limits.lookup row.1).getD row.2))

def proposedLimits (target : Option PendingTarget) : PositionLimits :=
  (target.map PendingTarget.positionLimits).getD ∅

def mergeLimits (target : Option PendingTarget) (riskLimits : PositionLimits) : PositionLimits :=
  riskLimits.entries.foldl tightenLimit (proposedLimits target)

/-- The exposure cap of the proposal, lowered to the cap of the risk module. -/
def exposureCap (target : Option PendingTarget) (cap : Option ℚ) : Option ℚ :=
  match cap, target.bind PendingTarget.maximumStockExposure with
  | some cap, some present => some (min cap present)
  | some cap, none => some cap
  | none, present => present

/-! ### Limits -/

lemma lookup_foldl_tighten {rows : List (Sigma fun _ : InstrumentId => ℕ)}
    (hkeys : rows.NodupKeys) (limits : PositionLimits) (id : InstrumentId) :
    (rows.foldl tightenLimit limits).lookup id =
      match rows.dlookup id with
      | some maximum => some (min maximum ((limits.lookup id).getD maximum))
      | none => limits.lookup id := by
  induction rows generalizing limits with
  | nil => rfl
  | cons row rows ih =>
    obtain ⟨hnotMem, hrest⟩ := List.nodupKeys_cons.mp hkeys
    rw [List.foldl_cons, ih hrest]
    by_cases hid : id = row.1
    · subst hid
      rw [List.dlookup_eq_none.mpr hnotMem, List.dlookup_cons_eq]
      simp [tightenLimit]
    · rw [List.dlookup_cons_ne _ _ hid]
      simp [tightenLimit, hid]

/-- A limit of the risk module is in force, and can only be lowered by the proposal. -/
theorem lookup_mergeLimits (target : Option PendingTarget) (riskLimits : PositionLimits)
    (id : InstrumentId) :
    (mergeLimits target riskLimits).lookup id =
      match riskLimits.lookup id with
      | some maximum => some (min maximum (((proposedLimits target).lookup id).getD maximum))
      | none => (proposedLimits target).lookup id :=
  lookup_foldl_tighten riskLimits.nodupKeys _ id

lemma mergeLimits_ne_nil {target : Option PendingTarget} {riskLimits : PositionLimits}
    (h : riskLimits.entries ≠ []) : (mergeLimits target riskLimits).entries ≠ [] := by
  obtain ⟨row, rows, hcons⟩ := List.exists_cons_of_ne_nil h
  have hlookup : riskLimits.lookup row.1 = some row.2 := by
    rw [OrderedMap.lookup_eq_some_iff, hcons]
    exact List.mem_cons_self
  have hmerged := lookup_mergeLimits target riskLimits row.1
  rw [hlookup] at hmerged
  intro hnil
  have hmem := OrderedMap.lookup_eq_some_iff.mp hmerged
  rw [hnil] at hmem
  cases hmem

/-! ### Targets -/

lemma exposureCap_nonneg {target : Option PendingTarget} {cap : Option ℚ}
    (hcap : ∀ c ∈ cap, 0 ≤ c) : ∀ c ∈ exposureCap target cap, 0 ≤ c := by
  intro c hc
  have hproposed : ∀ p ∈ target.bind PendingTarget.maximumStockExposure, 0 ≤ p := by
    intro p hp
    obtain ⟨proposal, _, hmax⟩ := Option.bind_eq_some_iff.mp hp
    exact proposal.maximumStockExposure_nonneg p hmax
  unfold exposureCap at hc
  split at hc
  · rename_i present hpresent
    cases hc
    exact le_min (hcap _ rfl) (hproposed present hpresent)
  · cases hc
    exact hcap _ rfl
  · exact hproposed c hc

/-- The target of a Close, from the proposal and what the risk policies observed. -/
def riskTarget (session : Session) (target : Option PendingTarget) (riskLimits : PositionLimits)
    (cap : Option ℚ) (hcap : ∀ c ∈ cap, 0 ≤ c) (reasons : List String) : Option PendingTarget :=
  if reasons = [] then target
  else if h : riskLimits.entries ≠ [] ∨ (exposureCap target cap).isSome = true then
    some
      { decisionSession := session
        reason := String.intercalate "+" reasons.eraseDups
        allocation := target.bind PendingTarget.allocation
        positionLimits := mergeLimits target riskLimits
        maximumStockExposure := exposureCap target cap
        maximumStockExposure_nonneg := exposureCap_nonneg hcap
        not_empty := h.elim (fun hlimits => .inr (.inl (mergeLimits_ne_nil hlimits)))
          fun hexposure => .inr (.inr hexposure) }
  else target

/-- While the risk module caps the exposure, every Close has a target under that cap. -/
theorem riskTarget_capped (session : Session) (target : Option PendingTarget)
    (riskLimits : PositionLimits) {cap : ℚ} (hcap : ∀ c ∈ some cap, 0 ≤ c)
    {reasons : List String} (hreasons : reasons ≠ []) :
    ∃ final exposure, riskTarget session target riskLimits (some cap) hcap reasons = some final
      ∧ final.maximumStockExposure = some exposure ∧ exposure ≤ cap := by
  have hexposure : ∃ exposure, exposureCap target (some cap) = some exposure ∧ exposure ≤ cap := by
    unfold exposureCap
    cases target.bind PendingTarget.maximumStockExposure with
    | none => exact ⟨cap, rfl, le_rfl⟩
    | some present => exact ⟨min cap present, rfl, min_le_left _ _⟩
  obtain ⟨exposure, hsome, hle⟩ := hexposure
  unfold riskTarget
  rw [if_neg hreasons, dif_pos (.inr (by rw [hsome]; rfl))]
  exact ⟨_, exposure, rfl, hsome, hle⟩

end ThesisTrace.Risk
