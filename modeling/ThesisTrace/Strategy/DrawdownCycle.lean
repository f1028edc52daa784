import ThesisTrace.Strategy.PortfolioDrawdown

/-!
# The drawdown risk cycle over whole runs

The stored state of the drawdown policy encodes a risk cycle: the Close that began it and, while
the cap is in force, the Close that triggered it. Every run of Closes follows these cycles.
-/

namespace ThesisTrace.Risk
open Strategy DecimalText DecimalContext

variable (R : Rounding) (policy : PortfolioDrawdownPolicy) (closes : RiskCloses)

/-! ### Peaks -/

lemma peakSince_self (nav : ℕ → ℚ) (n : ℕ) : peakSince nav n n = nav n := by
  cases n with
  | zero => rfl
  | succ n => exact if_pos le_rfl

lemma peakSince_succ {nav : ℕ → ℚ} {start n : ℕ} (h : start ≤ n) :
    peakSince nav start (n + 1) = max (peakSince nav start n) (nav (n + 1)) :=
  if_neg (by omega)

lemma le_peakSince {nav : ℕ → ℚ} {start n i : ℕ} (hstart : start ≤ i) (hi : i ≤ n) :
    nav i ≤ peakSince nav start n := by
  induction n with
  | zero =>
    obtain rfl : i = 0 := by omega
    exact le_rfl
  | succ n ih =>
    by_cases hlast : start ≤ n
    · rw [peakSince_succ hlast]
      rcases Nat.le_succ_iff.mp hi with hle | rfl
      · exact (ih hle).trans (le_max_left _ _)
      · exact le_max_right _ _
    · obtain rfl : i = n + 1 := by omega
      obtain rfl : start = n + 1 := by omega
      exact (peakSince_self nav (n + 1)).ge

lemma peakSince_mem {nav : ℕ → ℚ} {start n : ℕ} (h : start ≤ n) :
    ∃ i, start ≤ i ∧ i ≤ n ∧ peakSince nav start n = nav i := by
  induction n with
  | zero => exact ⟨0, h, le_rfl, rfl⟩
  | succ n ih =>
    by_cases hlast : start ≤ n
    · obtain ⟨i, hlow, hhigh, hpeak⟩ := ih hlast
      rw [peakSince_succ hlast]
      rcases max_choice (peakSince nav start n) (nav (n + 1)) with hmax | hmax
      · exact ⟨i, hlow, by omega, hmax.trans hpeak⟩
      · exact ⟨n + 1, h, le_rfl, hmax⟩
    · obtain rfl : start = n + 1 := by omega
      exact ⟨n + 1, le_rfl, le_rfl, peakSince_self nav (n + 1)⟩

lemma RiskCloses.peak_inContext {start n : ℕ} (h : start ≤ n) :
    0 ≤ peakSince closes.nav start n ∧ InContext 34 6176 (peakSince closes.nav start n) := by
  obtain ⟨i, _, _, hpeak⟩ := @peakSince_mem closes.nav _ _ h
  rw [hpeak]
  exact ⟨closes.nav_nonneg i, closes.nav_inContext i⟩

/-! ### The stored state of a cycle -/

/-- The state stored at Close `n` in a cycle. -/
def RiskCycle.encode (cycle : RiskCycle) (n : ℕ) : PortfolioDrawdownState where
  cycleStartedSession := closes.session cycle.start
  peakCloseNavCny := canonicalDecimal (peakSince closes.nav cycle.start n)
  triggeredSession := cycle.trigger.map closes.session
  triggeredSessionNumber := cycle.trigger.map fun t : ℕ => (t : ℤ) + 1

/-- The Closes that a cycle names lie in order before Close `n`. -/
structure RiskCycle.Ordered (cycle : RiskCycle) (n : ℕ) : Prop where
  start_le : cycle.start ≤ n
  trigger_ge : ∀ t ∈ cycle.trigger, cycle.start ≤ t
  trigger_le : ∀ t ∈ cycle.trigger, t ≤ n

variable {R policy closes}

lemma RiskCycle.Ordered.mono {cycle : RiskCycle} {n n' : ℕ} (h : cycle.Ordered n) (hle : n ≤ n') :
    cycle.Ordered n' :=
  ⟨h.start_le.trans hle, h.trigger_ge, fun t ht => (h.trigger_le t ht).trans hle⟩

lemma peak_encode {cycle : RiskCycle} {n : ℕ} (h : cycle.Ordered n) :
    (cycle.encode closes n).peak = peakSince closes.nav cycle.start n := by
  unfold PortfolioDrawdownState.peak RiskCycle.encode
  rw [readDecimal_canonicalDecimal (closes.peak_inContext h.start_le).2.isDecimal]
  rfl

/-- A stored state passes its own validation. -/
theorem modelValidate_encode {cycle : RiskCycle} {n : ℕ} (h : cycle.Ordered n) :
    (cycle.encode closes n).modelValidate = .ok () := by
  obtain ⟨hnonneg, hcontext⟩ := closes.peak_inContext h.start_le
  have hlength := @length_canonicalDecimal 34 6176 4 _ (by decide) (by decide) (by decide) hcontext
  have hnumber : ¬∃ number ∈ (cycle.encode closes n).triggeredSessionNumber, number < 1 := by
    rintro ⟨number, hnumber, hlt⟩
    obtain ⟨t, _, rfl⟩ := Option.map_eq_some_iff.mp hnumber
    omega
  have htriggered : ¬∃ triggered ∈ (cycle.encode closes n).triggeredSession,
      triggered < (cycle.encode closes n).cycleStartedSession := by
    rintro ⟨triggered, htriggered, hlt⟩
    obtain ⟨t, ht, rfl⟩ := Option.map_eq_some_iff.mp htriggered
    exact absurd hlt (not_lt.mpr (closes.session_strictMono.monotone (h.trigger_ge t ht)))
  have hpaired : (cycle.encode closes n).triggeredSession.isNone =
      (cycle.encode closes n).triggeredSessionNumber.isNone := by
    unfold RiskCycle.encode
    rw [Option.isNone_map, Option.isNone_map]
  unfold PortfolioDrawdownState.modelValidate
  rw [if_neg (by unfold RiskCycle.encode; dsimp only; omega), if_neg hnumber]
  have hread : readDecimal (cycle.encode closes n).peakCloseNavCny =
      some (peakSince closes.nav cycle.start n) := readDecimal_canonicalDecimal hcontext.isDecimal
  rw [hread]
  dsimp only
  rw [if_neg]
  rintro (hneg | htext | hne | hlt)
  · exact absurd hneg (not_lt.mpr hnonneg)
  · exact htext rfl
  · exact hne hpaired
  · exact htriggered hlt

/-- A stored state passes the validation at the boundary where it was stored. -/
theorem validateBoundary_encode {cycle : RiskCycle} {n : ℕ} (h : cycle.Ordered n) :
    (cycle.encode closes n).validateBoundary (closes.session n) (n + 1) (closes.nav n) =
      .ok () := by
  unfold PortfolioDrawdownState.validateBoundary
  rw [if_neg]
  rintro (hstart | hpeak | ⟨triggered, htriggered, hlt⟩ | ⟨number, hnumber, hlt⟩)
  · exact absurd hstart (not_lt.mpr (closes.session_strictMono.monotone h.start_le))
  · rw [peak_encode h] at hpeak
    exact absurd hpeak (not_lt.mpr (le_peakSince h.start_le le_rfl))
  · obtain ⟨t, ht, rfl⟩ := Option.map_eq_some_iff.mp htriggered
    exact absurd hlt (not_lt.mpr (closes.session_strictMono.monotone (h.trigger_le t ht)))
  · obtain ⟨t, ht, rfl⟩ := Option.map_eq_some_iff.mp hnumber
    have := h.trigger_le t ht
    omega

/-! ### One Close -/

lemma nextCycle_ordered {n : ℕ} {cycle : RiskCycle} (h : cycle.Ordered n) :
    (nextCycle R policy closes n cycle).Ordered n := by
  unfold nextCycle
  split
  · split
    · exact ⟨le_rfl, nofun, nofun⟩
    · exact h
  · split
    · refine ⟨h.start_le, ?_, ?_⟩
      · rintro t ⟨⟩
        exact h.start_le
      · rintro t ⟨⟩
        exact le_rfl
    · exact h

/-- A state that agrees with a cycle before Close `n`. -/
structure Agrees (closes : RiskCloses) (n : ℕ) (cycle : RiskCycle)
    (state : PortfolioDrawdownState) : Prop where
  started : state.cycleStartedSession = closes.session cycle.start
  peak : max state.peak (closes.nav n) = peakSince closes.nav cycle.start n
  session : state.triggeredSession = cycle.trigger.map closes.session
  number : state.triggeredSessionNumber = cycle.trigger.map fun t : ℕ => (t : ℤ) + 1

lemma agrees_fresh : Agrees closes 0 ⟨0, none⟩ (freshCycle (closes.session 0) (closes.nav 0)) where
  started := rfl
  peak := by
    have hread := readDecimal_canonicalDecimal (closes.nav_inContext 0).isDecimal
    unfold PortfolioDrawdownState.peak freshCycle
    rw [hread, Option.getD_some, max_self]
    rfl
  session := rfl
  number := rfl

lemma agrees_encode {cycle : RiskCycle} {n : ℕ} (h : cycle.Ordered n) :
    Agrees closes (n + 1) cycle (cycle.encode closes n) where
  started := rfl
  peak := by rw [peak_encode h, peakSince_succ h.start_le]
  session := rfl
  number := rfl

/-- The status that a Close reports, from the cycle before it. -/
def cycleStatus (R : Rounding) (policy : PortfolioDrawdownPolicy) (closes : RiskCloses) (n : ℕ)
    (cycle : RiskCycle) : DrawdownStatus :=
  match cycle.trigger with
  | some t =>
    if policy.cooldownSessions ≤ n - t then
      if (closes.proposal n).isSome = true then .newPortfolioRecovery else .awaitingNewPortfolio
    else .cooldown
  | none =>
    if policy.drawdownThreshold ≤
        drawdownOf R (closes.nav n) (peakSince closes.nav cycle.start n) then .thresholdReached
    else .observing

/-- A Close takes the state of a cycle to the state of its next cycle. -/
theorem advanceCycle_encode {n : ℕ} {cycle : RiskCycle} {state : PortfolioDrawdownState}
    (hordered : cycle.Ordered n) (h : Agrees closes n cycle state) :
    ∃ decision, advanceCycle R policy (closes.nav n) (closes.session n) (n + 1)
        (closes.proposal n).isSome state = decision
      ∧ decision.state = (nextCycle R policy closes n cycle).encode closes n
      ∧ decision.cap =
        (nextCycle R policy closes n cycle).trigger.map (fun _ => policy.maximumStockExposure)
      ∧ decision.observation.status = cycleStatus R policy closes n cycle := by
  refine ⟨_, rfl, ?_⟩
  obtain ⟨hstarted, hpeak, hsession, hnumber⟩ := h
  unfold advanceCycle nextCycle cycleStatus
  rw [hpeak, hnumber]
  cases htrigger : cycle.trigger with
  | none =>
    dsimp only [Option.map_none]
    split_ifs with hdeep
    · refine ⟨?_, rfl, rfl⟩
      simp [closeDecision, RiskCycle.encode, hstarted]
    · refine ⟨?_, ?_, rfl⟩
      · simp [closeDecision, RiskCycle.encode, hstarted, hsession, hnumber]
      · simp [closeDecision, hnumber, htrigger]
  | some t =>
    have htn := hordered.trigger_le t htrigger
    have helapsed : (policy.cooldownSessions : ℤ) ≤ (n : ℤ) + 1 - (t + 1) ↔
        policy.cooldownSessions ≤ n - t := by omega
    dsimp only [Option.map_some]
    simp only [helapsed]
    by_cases hcooled : policy.cooldownSessions ≤ n - t
    · by_cases hproposal : (closes.proposal n).isSome = true
      · rw [if_pos ⟨hcooled, hproposal⟩, if_pos ⟨hcooled, hproposal⟩, if_pos hcooled,
          if_pos hproposal]
        refine ⟨?_, rfl, rfl⟩
        simp [closeDecision, RiskCycle.encode, freshCycle, peakSince_self]
      · have hheld : ¬(policy.cooldownSessions ≤ n - t ∧ (closes.proposal n).isSome = true) :=
          fun h => hproposal h.2
        simp only [if_neg hheld, if_pos hcooled, if_neg hproposal]
        refine ⟨?_, ?_, rfl⟩
        · simp [closeDecision, RiskCycle.encode, hstarted, hsession, hnumber]
        · simp [closeDecision, hnumber, htrigger]
    · have hheld : ¬(policy.cooldownSessions ≤ n - t ∧ (closes.proposal n).isSome = true) :=
        fun h => hcooled h.1
      simp only [if_neg hheld, if_neg hcooled]
      refine ⟨?_, ?_, rfl⟩
      · simp [closeDecision, RiskCycle.encode, hstarted, hsession, hnumber]
      · simp [closeDecision, hnumber, htrigger]

/-! ### Runs -/

lemma cycleAt_ordered (n : ℕ) : (cycleAt R policy closes n).Ordered n := by
  induction n with
  | zero => exact nextCycle_ordered ⟨le_rfl, nofun, nofun⟩
  | succ n ih => exact nextCycle_ordered (ih.mono (Nat.le_succ n))

/-- The cycle before Close `n`. -/
def cycleBefore (R : Rounding) (policy : PortfolioDrawdownPolicy) (closes : RiskCloses) :
    ℕ → RiskCycle
  | 0 => ⟨0, none⟩
  | n + 1 => cycleAt R policy closes n

lemma cycleAt_eq (n : ℕ) :
    cycleAt R policy closes n = nextCycle R policy closes n (cycleBefore R policy closes n) := by
  cases n <;> rfl

lemma cycleBefore_ordered (n : ℕ) : (cycleBefore R policy closes n).Ordered n := by
  cases n with
  | zero => exact ⟨le_rfl, nofun, nofun⟩
  | succ n => exact (cycleAt_ordered n).mono (Nat.le_succ n)

/-- What a Close of a run stores, imposes and reports, by its cycle. -/
structure FollowsCycle (R : Rounding) (policy : PortfolioDrawdownPolicy) (closes : RiskCloses)
    (n : ℕ) (close : RiskClose) : Prop where
  state : close.decision.state = (cycleAt R policy closes n).encode closes n
  cap : close.decision.cap =
    (cycleAt R policy closes n).trigger.map fun _ => policy.maximumStockExposure
  status : close.decision.observation.status =
    cycleStatus R policy closes n (cycleBefore R policy closes n)
  target : close.target = riskTarget (closes.session n) (closes.proposal n) (closes.riskLimits n)
    close.decision.cap close.decision.cap_nonneg (closes.reasons n ++ ["portfolio_drawdown"])

lemma riskClose_follows {n : ℕ} {previous : Option PortfolioDrawdownState}
    (hvalid : ∀ state ∈ previous, state.modelValidate = .ok ())
    (h : Agrees closes n (cycleBefore R policy closes n)
      (previous.getD (freshCycle (closes.session n) (closes.nav n)))) :
    ∃ close, riskClose R policy closes n previous = .ok close
      ∧ FollowsCycle R policy closes n close := by
  obtain ⟨decision, hadvance, hstate, hcap, hstatus⟩ :=
    @advanceCycle_encode R policy closes n _ _ (cycleBefore_ordered n) h
  rw [← cycleAt_eq] at hstate hcap
  have hdecision : portfolioDrawdownDecision R policy (closes.nav n) (closes.session n) (n + 1)
      (closes.proposal n).isSome previous = .ok decision := by
    unfold portfolioDrawdownDecision
    rw [if_neg (not_lt.mpr (closes.nav_nonneg n))]
    cases previous with
    | none => exact congrArg Except.ok hadvance
    | some state =>
      dsimp only
      rw [hvalid state rfl]
      exact congrArg Except.ok hadvance
  unfold riskClose
  rw [hdecision]
  exact ⟨_, rfl, hstate, hcap, hstatus, rfl⟩

/-- Every Close of every run succeeds and follows its cycle. -/
theorem riskRun_follows (n : ℕ) :
    ∃ close, riskRun R policy closes n = .ok close ∧ FollowsCycle R policy closes n close := by
  induction n with
  | zero => exact riskClose_follows nofun agrees_fresh
  | succ n ih =>
    obtain ⟨before, hbefore, hfollows⟩ := ih
    have hordered : (cycleAt R policy closes n).Ordered n := cycleAt_ordered n
    have hvalid : ∀ state ∈ some before.decision.state, state.modelValidate = .ok () := by
      rintro _ ⟨⟩
      rw [hfollows.state]
      exact modelValidate_encode hordered
    have hagrees : Agrees closes (n + 1) (cycleBefore R policy closes (n + 1))
        ((some before.decision.state).getD
          (freshCycle (closes.session (n + 1)) (closes.nav (n + 1)))) := by
      rw [Option.getD_some, hfollows.state]
      exact agrees_encode hordered
    obtain ⟨close, hclose, hnext⟩ := riskClose_follows hvalid hagrees
    refine ⟨close, ?_, hnext⟩
    change (riskRun R policy closes n).bind _ = _
    rw [hbefore]
    exact hclose

/-! ### Trigger, cap and release -/

variable (R policy closes)

/-- Close `t` of the run reports that the threshold is reached. -/
def ThresholdReached (t : ℕ) : Prop :=
  ∃ close, riskRun R policy closes t = .ok close
    ∧ close.decision.observation.status = .thresholdReached

/-- At Close `k` the cooldown since `t` has elapsed and a proposal arrives. -/
def Released (t k : ℕ) : Prop :=
  policy.cooldownSessions ≤ k - t ∧ (closes.proposal k).isSome = true

/-- A trigger without a release since. -/
def CapInForce (n : ℕ) : Prop :=
  ∃ t ≤ n, ThresholdReached R policy closes t ∧ ∀ k, t < k → k ≤ n → ¬Released policy closes t k

variable {R policy closes}

lemma thresholdReached_iff (t : ℕ) : ThresholdReached R policy closes t ↔
    (cycleBefore R policy closes t).trigger = none ∧
      (cycleAt R policy closes t).trigger = some t := by
  obtain ⟨close, hclose, hfollows⟩ := riskRun_follows t
  have hstatus : ThresholdReached R policy closes t ↔
      cycleStatus R policy closes t (cycleBefore R policy closes t) = .thresholdReached := by
    rw [← hfollows.status]
    constructor
    · rintro ⟨close', hclose', h⟩
      rw [hclose] at hclose'
      cases hclose'
      exact h
    · exact fun h => ⟨close, hclose, h⟩
  rw [hstatus, cycleAt_eq]
  unfold cycleStatus nextCycle
  cases htrigger : (cycleBefore R policy closes t).trigger with
  | none =>
    dsimp only
    split_ifs <;> simp [htrigger]
  | some t' =>
    dsimp only
    split_ifs <;> simp

/-- A trigger stays in the cycle until it is released. -/
lemma trigger_kept {t n : ℕ} (htn : t ≤ n) (htrigger : (cycleAt R policy closes t).trigger = some t)
    (hheld : ∀ k, t < k → k ≤ n → ¬Released policy closes t k) :
    (cycleAt R policy closes n).trigger = some t := by
  induction n with
  | zero =>
    obtain rfl : t = 0 := by omega
    exact htrigger
  | succ n ih =>
    rcases Nat.le_succ_iff.mp htn with hle | rfl
    · have hbefore := ih hle fun k hk hkn => hheld k hk (by omega)
      have hstep : cycleAt R policy closes (n + 1) = cycleAt R policy closes n := by
        change nextCycle R policy closes (n + 1) _ = _
        unfold nextCycle
        rw [hbefore]
        exact if_neg (hheld (n + 1) (by omega) le_rfl)
      rw [hstep, hbefore]
    · exact htrigger

/-- A trigger in the cycle was reported when it began, and has not been released. -/
lemma trigger_origin {t n : ℕ} (h : (cycleAt R policy closes n).trigger = some t) :
    t ≤ n ∧ ThresholdReached R policy closes t ∧
      ∀ k, t < k → k ≤ n → ¬Released policy closes t k := by
  induction n with
  | zero =>
    have hordered : (cycleAt R policy closes 0).Ordered 0 := cycleAt_ordered 0
    have hle := hordered.trigger_le t h
    obtain rfl : t = 0 := by omega
    exact ⟨le_rfl, (thresholdReached_iff 0).mpr ⟨rfl, h⟩, fun k hk hk0 => absurd hk (by omega)⟩
  | succ n ih =>
    have hstep : cycleAt R policy closes (n + 1) =
        nextCycle R policy closes (n + 1) (cycleAt R policy closes n) := rfl
    have hnext := h
    rw [hstep] at hnext
    unfold nextCycle at hnext
    cases hbefore : (cycleAt R policy closes n).trigger with
    | none =>
      rw [hbefore] at hnext
      dsimp only at hnext
      split_ifs at hnext
      · cases hnext
        exact ⟨le_rfl, (thresholdReached_iff (n + 1)).mpr ⟨hbefore, h⟩,
          fun k hk hkn => absurd hk (by omega)⟩
      · rw [hbefore] at hnext
        cases hnext
    | some t' =>
      rw [hbefore] at hnext
      dsimp only at hnext
      split_ifs at hnext with hreleased
      rw [hbefore] at hnext
      cases hnext
      obtain ⟨hle, hreached, hheld⟩ := ih hbefore
      refine ⟨by omega, hreached, fun k hk hkn => ?_⟩
      rcases Nat.le_succ_iff.mp hkn with hkn | rfl
      · exact hheld k hk hkn
      · exact hreleased

lemma capInForce_iff (n : ℕ) :
    CapInForce R policy closes n ↔ (cycleAt R policy closes n).trigger.isSome = true := by
  constructor
  · rintro ⟨t, htn, hreached, hheld⟩
    rw [trigger_kept htn ((thresholdReached_iff t).mp hreached).2 hheld]
    rfl
  · intro h
    obtain ⟨t, ht⟩ := Option.isSome_iff_exists.mp h
    obtain ⟨htn, hreached, hheld⟩ := trigger_origin ht
    exact ⟨t, htn, hreached, hheld⟩

/-- What a Close of a run tracks. The cap is in force from the Close that reaches the threshold
until a proposal arrives when the cooldown has elapsed; that Close begins the next cycle. -/
structure TracksDrawdown (R : Rounding) (policy : PortfolioDrawdownPolicy) (closes : RiskCloses)
    (n : ℕ) (close : RiskClose) : Prop where
  valid : close.decision.state.modelValidate = .ok ()
  boundary : close.decision.state.validateBoundary (closes.session n) (n + 1) (closes.nav n) =
    .ok ()
  peak : ∃ start ≤ n, close.decision.state.cycleStartedSession = closes.session start
    ∧ (∀ i, start ≤ i → i ≤ n → closes.nav i ≤ close.decision.state.peak)
    ∧ ∃ i, start ≤ i ∧ i ≤ n ∧ close.decision.state.peak = closes.nav i
  triggered : ThresholdReached R policy closes n ↔
    (∀ m, n = m + 1 → ¬CapInForce R policy closes m)
      ∧ policy.drawdownThreshold ≤ drawdownOf R (closes.nav n) close.decision.state.peak
  capped : CapInForce R policy closes n →
    close.decision.cap = some policy.maximumStockExposure
      ∧ ∃ final exposure, close.target = some final ∧ final.maximumStockExposure = some exposure
        ∧ exposure ≤ policy.maximumStockExposure
  uncapped : ¬CapInForce R policy closes n → close.decision.cap = none
  restarted : ∀ m, n = m + 1 → CapInForce R policy closes m → ¬CapInForce R policy closes n →
    close.decision.state.cycleStartedSession = closes.session n
      ∧ close.decision.state.peak = closes.nav n
  continued : ∀ m before, n = m + 1 → riskRun R policy closes m = .ok before →
    (CapInForce R policy closes m → CapInForce R policy closes n) →
      close.decision.state.cycleStartedSession = before.decision.state.cycleStartedSession

lemma restart_of_release {m : ℕ} (hbefore : CapInForce R policy closes m)
    (hafter : ¬CapInForce R policy closes (m + 1)) :
    cycleAt R policy closes (m + 1) = ⟨m + 1, none⟩ := by
  rw [capInForce_iff] at hbefore hafter
  obtain ⟨t, ht⟩ := Option.isSome_iff_exists.mp hbefore
  have hstep : cycleAt R policy closes (m + 1) =
      nextCycle R policy closes (m + 1) (cycleAt R policy closes m) := rfl
  rw [hstep] at hafter ⊢
  unfold nextCycle at hafter ⊢
  rw [ht] at hafter ⊢
  dsimp only at hafter ⊢
  split_ifs at hafter ⊢
  · rfl
  · rw [ht] at hafter
    exact absurd rfl hafter

lemma start_kept {m : ℕ}
    (h : CapInForce R policy closes m → CapInForce R policy closes (m + 1)) :
    (cycleAt R policy closes (m + 1)).start = (cycleAt R policy closes m).start := by
  rw [capInForce_iff, capInForce_iff] at h
  have hstep : cycleAt R policy closes (m + 1) =
      nextCycle R policy closes (m + 1) (cycleAt R policy closes m) := rfl
  rw [hstep] at h ⊢
  unfold nextCycle at h ⊢
  cases ht : (cycleAt R policy closes m).trigger with
  | none =>
    dsimp only
    split_ifs <;> rfl
  | some t =>
    rw [ht] at h
    dsimp only at h ⊢
    split_ifs at h ⊢
    · exact absurd (h rfl) nofun
    · rfl

/-- Triggered at Close `n`: no cap before it, and a fall from the peak to the threshold. -/
lemma triggered_iff {n : ℕ} {peak : ℚ}
    (hpeak : peak = peakSince closes.nav (cycleAt R policy closes n).start n) :
    ThresholdReached R policy closes n ↔
      (∀ m, n = m + 1 → ¬CapInForce R policy closes m)
        ∧ policy.drawdownThreshold ≤ drawdownOf R (closes.nav n) peak := by
  have hfree : (cycleBefore R policy closes n).trigger = none ↔
      ∀ m, n = m + 1 → ¬CapInForce R policy closes m := by
    cases n with
    | zero => exact iff_of_true rfl fun m hm => absurd hm (by omega)
    | succ n =>
      have hbefore : (cycleBefore R policy closes (n + 1)).trigger = none ↔
          ¬CapInForce R policy closes n := by
        rw [capInForce_iff, ← Option.isNone_iff_eq_none, ← Option.not_isSome]
        simp [cycleBefore]
      rw [hbefore]
      constructor
      · rintro h m ⟨⟩
        exact h
      · exact fun h => h n rfl
  rw [thresholdReached_iff, ← hfree]
  refine and_congr_right fun hnone => ?_
  have hstep : cycleAt R policy closes n =
      nextCycle R policy closes n (cycleBefore R policy closes n) := cycleAt_eq n
  unfold nextCycle at hstep
  rw [hnone] at hstep
  dsimp only at hstep
  split_ifs at hstep with hdeep
  · rw [hstep] at hpeak
    rw [hpeak, hstep]
    exact iff_of_true rfl hdeep
  · rw [hstep] at hpeak
    rw [hpeak, hstep, hnone]
    exact iff_of_false nofun hdeep

/-- Over every sequence of Closes the decision succeeds, its stored state passes the boundary
validation, the peak is the highest NAV since the cycle began, and the cap, once triggered, is
in force until a proposal arrives after the cooldown, which begins a cycle at its own NAV. -/
theorem drawdown_risk_cycle (R : Rounding) (policy : PortfolioDrawdownPolicy)
    (closes : RiskCloses) (n : ℕ) :
    ∃ close, riskRun R policy closes n = .ok close ∧ TracksDrawdown R policy closes n close := by
  obtain ⟨close, hclose, hfollows⟩ := riskRun_follows n
  have hordered : (cycleAt R policy closes n).Ordered n := cycleAt_ordered n
  have hpeak : close.decision.state.peak =
      peakSince closes.nav (cycleAt R policy closes n).start n := by
    rw [hfollows.state, peak_encode hordered]
  refine ⟨close, hclose, ?_⟩
  constructor
  case valid =>
    rw [hfollows.state]
    exact modelValidate_encode hordered
  case boundary =>
    rw [hfollows.state]
    exact validateBoundary_encode hordered
  case peak =>
    refine ⟨(cycleAt R policy closes n).start, hordered.start_le, ?_, ?_, ?_⟩
    · rw [hfollows.state]
      rfl
    · intro i hstart hi
      rw [hpeak]
      exact le_peakSince hstart hi
    · rw [hpeak]
      exact peakSince_mem hordered.start_le
  case triggered => exact triggered_iff hpeak
  case capped =>
    intro hforce
    obtain ⟨t, ht⟩ := Option.isSome_iff_exists.mp ((capInForce_iff n).mp hforce)
    have hcap : close.decision.cap = some policy.maximumStockExposure := by
      rw [hfollows.cap, ht]
      rfl
    refine ⟨hcap, ?_⟩
    have hreasons : closes.reasons n ++ ["portfolio_drawdown"] ≠ [] := by simp
    have hnonneg : ∀ c ∈ some policy.maximumStockExposure, 0 ≤ c := by
      rintro _ ⟨⟩
      exact policy.exposure_nonneg
    obtain ⟨final, exposure, hfinal, hexposure, hle⟩ := riskTarget_capped (closes.session n)
      (closes.proposal n) (closes.riskLimits n) hnonneg hreasons
    refine ⟨final, exposure, ?_, hexposure, hle⟩
    rw [hfollows.target]
    simp only [hcap]
    exact hfinal
  case uncapped =>
    intro hfree
    have hnone : (cycleAt R policy closes n).trigger = none := by
      simpa [capInForce_iff] using hfree
    rw [hfollows.cap, hnone]
    rfl
  case restarted =>
    rintro m rfl hbefore hafter
    have hrestart := restart_of_release hbefore hafter
    rw [hpeak, hfollows.state, hrestart]
    exact ⟨rfl, peakSince_self _ _⟩
  case continued =>
    rintro m before rfl hbefore hkept
    obtain ⟨before', hbefore', hfollows'⟩ := @riskRun_follows R policy closes m
    rw [hbefore] at hbefore'
    cases hbefore'
    rw [hfollows.state, hfollows'.state]
    exact congrArg closes.session (start_kept hkept)

/-! ### A fall and a recovery -/

/-- The stock exposure is halved for two sessions after a fall by a quarter. -/
def quarterFall : PortfolioDrawdownPolicy where
  drawdownThreshold := 1 / 4
  maximumStockExposure := 1 / 2
  cooldownSessions := 2
  threshold_pos := by norm_num
  threshold_le_one := by norm_num
  exposure_nonneg := by norm_num
  exposure_le_one := by norm_num
  cooldown_pos := by norm_num

/-- A cap alone, as a new proposal. -/
def capProposal (session : Session) : PendingTarget where
  decisionSession := session
  reason := "rebalance"
  allocation := none
  positionLimits := ∅
  maximumStockExposure := some 1
  maximumStockExposure_nonneg := by
    rintro _ ⟨⟩
    exact zero_le_one
  not_empty := .inr (.inr rfl)

/-- A fall from 100 to 70 and to 60, with a proposal in the third session and one in the fifth. -/
def fallingCloses : RiskCloses where
  session := id
  nav := fun n => if n = 0 then 100 else if n = 1 then 70 else 60
  proposal := fun n => if n = 2 ∨ n = 4 then some (capProposal n) else none
  riskLimits := fun _ => ∅
  reasons := fun _ => []
  session_strictMono := strictMono_id
  nav_nonneg := fun n => by split_ifs <;> norm_num
  nav_inContext := fun n => by
    split_ifs
    · exact ⟨100, 0, by norm_num, by norm_num, by norm_num⟩
    · exact ⟨70, 0, by norm_num, by norm_num, by norm_num⟩
    · exact ⟨60, 0, by norm_num, by norm_num, by norm_num⟩

/-- The fall triggers the cap, a proposal during the cooldown does not release it, and the one
after the cooldown does. -/
theorem drawdown_risk_cycle_recovers :
    (∀ n, ∃ close, riskRun .decimal quarterFall fallingCloses n = .ok close ∧
        TracksDrawdown .decimal quarterFall fallingCloses n close) ∧
      (List.range 5).map (fun n => (riskRun .decimal quarterFall fallingCloses n).toOption.map
        fun close => (close.decision.observation.status, close.decision.cap)) =
      [some (.observing, none), some (.thresholdReached, some (1 / 2)),
        some (.cooldown, some (1 / 2)), some (.awaitingNewPortfolio, some (1 / 2)),
        some (.newPortfolioRecovery, none)] :=
  ⟨drawdown_risk_cycle .decimal quarterFall fallingCloses, by decide +kernel⟩

end ThesisTrace.Risk
