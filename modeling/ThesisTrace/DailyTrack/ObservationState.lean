import Mathlib.Order.Bounds.Basic
import ThesisTrace.Library.DecimalText
import ThesisTrace.Library.Transaction

/-!
# The metric state of a tracked prefix

The highest NAV and the largest drawdown through the last completed observation. The state is kept
as canonical texts, and each batch of observations reads it, advances it and writes it again.
-/

namespace ThesisTrace.DailyTrack
open DecimalContext DecimalText Transaction

/-- `Decimal` on the texts of finite numbers; other texts are refused. -/
structure DecimalReader where
  read : String → Option ℚ
  isDecimal : ∀ text q, read text = some q → IsDecimal q
  read_canonical : ∀ q, IsDecimal q → read (canonicalDecimal q) = some q

inductive ObservationError
  | stateInvalid
  | notAfterBoundary
  | observationInvalid
  deriving DecidableEq, Repr

/-- Sessions are ISO dates, whose order is that of their texts. -/
structure TrackingObservationState (S : Type) where
  boundarySession : S
  peakNetNav : String
  maximumDrawdown : String
  deriving DecidableEq, Repr

structure Observation (S : Type) where
  session : S
  netNav : String
  deriving DecidableEq, Repr

section Definitions

variable {S : Type} [LinearOrder S] (decimal : DecimalReader)

/-- `validate_prefix` -/
def validatePrefix (state : TrackingObservationState S) : Except ObservationError Unit := do
  let peak ← found (decimal.read state.peakNetNav) .stateInvalid
  let loss ← found (decimal.read state.maximumDrawdown) .stateInvalid
  require (0 < peak ∧ 0 ≤ loss ∧ loss < 1) .stateInvalid

/-- The validating constructor of the state. -/
def buildState (state : TrackingObservationState S) :
    Except ObservationError (TrackingObservationState S) := do
  validatePrefix decimal state
  return state

def initialTrackingObservationState (session : S) (netNav : String) :
    Except ObservationError (TrackingObservationState S) :=
  buildState decimal ⟨session, netNav, "0"⟩

/-- A result in `ACCOUNTING_CONTEXT`. -/
def accounting (x : ℚ) : ℚ := roundTo 34 x

/-- `1 - nav / peak` -/
def drawdown (peak nav : ℚ) : ℚ := accounting (1 - accounting (nav / peak))

/-- The variables of the loop over the observations. -/
structure PrefixMetric (S : Type) where
  previous : S
  peak : ℚ
  loss : ℚ

def PrefixMetric.observe (metric : PrefixMetric S) (session : S) (nav : ℚ) : PrefixMetric S :=
  let peak := max metric.peak nav
  ⟨session, peak, max metric.loss (drawdown peak nav)⟩

def observeRow (metric : PrefixMetric S) (row : Observation S) :
    Except ObservationError (PrefixMetric S) := do
  let nav ← found (decimal.read row.netNav) .observationInvalid
  require (¬(nav ≤ 0 ∨ row.session ≤ metric.previous)) .observationInvalid
  return metric.observe row.session nav

def PrefixMetric.state (metric : PrefixMetric S) : TrackingObservationState S :=
  ⟨metric.previous, canonicalDecimal metric.peak, canonicalDecimal metric.loss⟩

def advanceTrackingObservationState (prior : TrackingObservationState S)
    (observations : List (Observation S)) :
    Except ObservationError (TrackingObservationState S) := do
  let first ← found observations.head? .notAfterBoundary
  require (¬first.session ≤ prior.boundarySession) .notAfterBoundary
  let peak ← found (decimal.read prior.peakNetNav) .stateInvalid
  let loss ← found (decimal.read prior.maximumDrawdown) .stateInvalid
  let metric ← observations.foldlM (observeRow decimal) ⟨prior.boundarySession, peak, loss⟩
  buildState decimal metric.state

end Definitions

/-! ### Drawdowns near one -/

section Drawdowns

/-- The highest ratio of a NAV to a peak whose drawdown the accounting context rounds to one. -/
def lostRatio : ℚ := 5 * (10 : ℚ) ^ (-35 : ℤ) + 5 * (10 : ℚ) ^ (-69 : ℤ)

lemma accounting_mono : Monotone accounting := roundTo_mono (by norm_num)

lemma accounting_pow (k : ℤ) : accounting ((10 : ℚ) ^ k) = 10 ^ k :=
  roundTo_of_representable ⟨1, k, by norm_num, by simp⟩

lemma accounting_lt_one_iff {q : ℚ} : accounting (1 - q) < 1 ↔ 5 * (10 : ℚ) ^ (-35 : ℤ) < q := by
  rcases lt_or_ge (1 - q) ((10 : ℚ) ^ (-1 : ℤ)) with hsmall | hlarge
  · have hround := accounting_mono hsmall.le
    rw [accounting_pow] at hround
    norm_num at hsmall hround ⊢
    constructor <;> intro _ <;> linarith
  rcases lt_or_ge (1 - q) ((10 : ℚ) ^ (0 : ℤ)) with hbelow | habove
  · have h := roundTo_lt_iff (p := 34) (n := 10 ^ 34) hlarge hbelow rfl (by norm_num)
    unfold accounting
    norm_num at h ⊢
    rw [h]
    constructor <;> intro _ <;> linarith
  · have hround := accounting_mono habove
    rw [accounting_pow] at hround
    norm_num at habove hround ⊢
    constructor <;> intro _ <;> linarith

lemma lt_accounting_iff {r : ℚ} : 5 * (10 : ℚ) ^ (-35 : ℤ) < accounting r ↔ lostRatio < r := by
  unfold lostRatio
  rcases lt_or_ge r ((10 : ℚ) ^ (-35 : ℤ)) with hsmall | hlarge
  · have hround := accounting_mono hsmall.le
    rw [accounting_pow] at hround
    norm_num at hsmall hround ⊢
    constructor <;> intro _ <;> linarith
  rcases lt_or_ge r ((10 : ℚ) ^ (-34 : ℤ)) with hbelow | habove
  · have h := lt_roundTo_iff (p := 34) (n := 5 * 10 ^ 33) hlarge (by norm_num at hbelow ⊢; exact hbelow) rfl
      (by norm_num)
    unfold accounting
    norm_num at h ⊢
    rw [h]
  · have hround := accounting_mono habove
    rw [accounting_pow] at hround
    norm_num at habove hround ⊢
    constructor <;> intro _ <;> linarith

/-- A drawdown is below one just when the NAV is not lost in the rounding. -/
lemma drawdown_lt_one_iff {peak nav : ℚ} (hpeak : 0 < peak) :
    drawdown peak nav < 1 ↔ lostRatio * peak < nav := by
  unfold drawdown
  rw [accounting_lt_one_iff, lt_accounting_iff, lt_div_iff₀ hpeak]

lemma drawdown_mono {peak peak' nav : ℚ} (hpeak : 0 < peak) (hle : peak ≤ peak') (hnav : 0 ≤ nav) :
    drawdown peak nav ≤ drawdown peak' nav :=
  accounting_mono (sub_le_sub_left (accounting_mono (div_le_div_of_nonneg_left hnav hpeak hle)) 1)

lemma drawdown_self {peak : ℚ} (hpeak : 0 < peak) : drawdown peak peak = 0 := by
  have hone : accounting 1 = 1 := by simpa using accounting_pow 0
  unfold drawdown
  rw [div_self hpeak.ne', hone, sub_self]
  exact roundTo_zero 34

end Drawdowns

/-! ### The exact metric -/

/-- `nav` stands at or after `peak`. -/
def AtOrAfter (navs : List ℚ) (peak nav : ℚ) : Prop :=
  ∃ i j : ℕ, i ≤ j ∧ navs[i]? = some peak ∧ navs[j]? = some nav

/-- The drawdowns between an observation and a later one, or itself. -/
def drawdowns (navs : List ℚ) : Set ℚ :=
  {loss | ∃ peak nav, AtOrAfter navs peak nav ∧ loss = drawdown peak nav}

/-- The highest NAV of a prefix, and its largest drawdown. -/
structure ExactMetric (navs : List ℚ) (peak loss : ℚ) : Prop where
  peak : IsGreatest {nav | nav ∈ navs} peak
  loss : IsGreatest (drawdowns navs) loss

section Exact

variable {navs : List ℚ} {peak nav loss : ℚ}

lemma AtOrAfter.mem (h : AtOrAfter navs peak nav) : peak ∈ navs ∧ nav ∈ navs := by
  obtain ⟨i, j, -, hi, hj⟩ := h
  exact ⟨List.mem_of_getElem? hi, List.mem_of_getElem? hj⟩

lemma atOrAfter_append {last : ℚ} :
    AtOrAfter (navs ++ [last]) peak nav ↔
      AtOrAfter navs peak nav ∨ peak ∈ navs ++ [last] ∧ nav = last := by
  have hlast : (navs ++ [last])[navs.length]? = some last := by simp
  constructor
  · rintro ⟨i, j, hle, hi, hj⟩
    by_cases hend : j < navs.length
    · rw [List.getElem?_append_left hend] at hj
      rw [List.getElem?_append_left (hle.trans_lt hend)] at hi
      exact .inl ⟨i, j, hle, hi, hj⟩
    · refine .inr ⟨List.mem_of_getElem? hi, ?_⟩
      obtain ⟨hlt, -⟩ := List.getElem?_eq_some_iff.mp hj
      rw [List.length_append, List.length_singleton] at hlt
      obtain rfl : j = navs.length := by omega
      exact Option.some.inj (hj.symm.trans hlast)
  · rintro (⟨i, j, hle, hi, hj⟩ | ⟨hmem, rfl⟩)
    · have hi' := (List.getElem?_eq_some_iff.mp hi).1
      have hj' := (List.getElem?_eq_some_iff.mp hj).1
      refine ⟨i, j, hle, ?_, ?_⟩
      · rwa [List.getElem?_append_left hi']
      · rwa [List.getElem?_append_left hj']
    · obtain ⟨i, hi⟩ := List.getElem?_of_mem hmem
      refine ⟨i, navs.length, ?_, hi, hlast⟩
      have hlt := (List.getElem?_eq_some_iff.mp hi).1
      rw [List.length_append, List.length_singleton] at hlt
      omega

lemma exactMetric_singleton (h : 0 < nav) : ExactMetric [nav] nav 0 where
  peak := ⟨List.mem_singleton_self nav, fun x hx => (List.mem_singleton.mp hx).le⟩
  loss := by
    constructor
    · exact ⟨nav, nav, ⟨0, 0, le_rfl, rfl, rfl⟩, (drawdown_self h).symm⟩
    · rintro _ ⟨peak, last, hpair, rfl⟩
      obtain rfl := List.mem_singleton.mp hpair.mem.1
      obtain rfl := List.mem_singleton.mp hpair.mem.2
      exact (drawdown_self h).le

/-- One more observation: only the pair with the new peak can raise the drawdown. -/
lemma ExactMetric.append (h : ExactMetric navs peak loss) (hpos : ∀ x ∈ navs, 0 < x)
    (hnav : 0 < nav) :
    ExactMetric (navs ++ [nav]) (max peak nav) (max loss (drawdown (max peak nav) nav)) := by
  have hpeak : IsGreatest {x | x ∈ navs ++ [nav]} (max peak nav) := by
    constructor
    · rcases max_choice peak nav with hmax | hmax
      · rw [hmax]
        exact List.mem_append_left _ h.peak.1
      · rw [hmax]
        exact List.mem_append_right _ (List.mem_singleton_self nav)
    · intro x hx
      rcases List.mem_append.mp hx with hx | hx
      · exact (h.peak.2 hx).trans (le_max_left _ _)
      · exact (List.mem_singleton.mp hx).le.trans (le_max_right _ _)
  refine ⟨hpeak, ?_, ?_⟩
  · rcases max_choice loss (drawdown (max peak nav) nav) with hmax | hmax
    · rw [hmax]
      obtain ⟨high, low, hpair, hloss⟩ := h.loss.1
      exact ⟨high, low, atOrAfter_append.mpr (.inl hpair), hloss⟩
    · rw [hmax]
      exact ⟨max peak nav, nav, atOrAfter_append.mpr (.inr ⟨hpeak.1, rfl⟩), rfl⟩
  · rintro _ ⟨high, low, hpair, rfl⟩
    rcases atOrAfter_append.mp hpair with hpair | ⟨hmem, rfl⟩
    · exact (h.loss.2 ⟨high, low, hpair, rfl⟩).trans (le_max_left _ _)
    · have hhigh : 0 < high := by
        rcases List.mem_append.mp hmem with hmem | hmem
        · exact hpos high hmem
        · exact List.mem_singleton.mp hmem ▸ hnav
      exact (drawdown_mono hhigh (hpeak.2 hmem) hnav.le).trans (le_max_right _ _)

end Exact

/-! ### Batches -/

section Batches

variable {S : Type} {metric : PrefixMetric S} {rows : List (S × ℚ)}

def PrefixMetric.observeAll (metric : PrefixMetric S) (rows : List (S × ℚ)) : PrefixMetric S :=
  rows.foldl (fun metric row => metric.observe row.1 row.2) metric

/-- The values that the validated state allows, but for a drawdown of one. -/
structure PrefixMetric.Valid (metric : PrefixMetric S) : Prop where
  peak_pos : 0 < metric.peak
  loss_nonneg : 0 ≤ metric.loss
  peak_decimal : IsDecimal metric.peak
  loss_decimal : IsDecimal metric.loss

/-- Positive decimal values of observations. -/
def PositiveRows (rows : List (S × ℚ)) : Prop := ∀ row ∈ rows, 0 < row.2 ∧ IsDecimal row.2

lemma isDecimal_max {x y : ℚ} (hx : IsDecimal x) (hy : IsDecimal y) : IsDecimal (max x y) := by
  rcases max_choice x y with hmax | hmax
  · rwa [hmax]
  · rwa [hmax]

lemma isDecimal_accounting (x : ℚ) : IsDecimal (accounting x) := ⟨_, _, rfl⟩

lemma PrefixMetric.Valid.observe (h : metric.Valid) (session : S) {nav : ℚ}
    (hnav : IsDecimal nav) : (metric.observe session nav).Valid where
  peak_pos := h.peak_pos.trans_le (le_max_left _ _)
  loss_nonneg := h.loss_nonneg.trans (le_max_left _ _)
  peak_decimal := isDecimal_max h.peak_decimal hnav
  loss_decimal := isDecimal_max h.loss_decimal (isDecimal_accounting _)

lemma PrefixMetric.Valid.observeAll (h : metric.Valid) (hrows : PositiveRows rows) :
    (metric.observeAll rows).Valid := by
  induction rows generalizing metric with
  | nil => exact h
  | cons row rows ih =>
    exact ih (h.observe row.1 (hrows row List.mem_cons_self).2) fun row hmem =>
      hrows row (List.mem_cons_of_mem _ hmem)

/-- The drawdown never falls. -/
lemma loss_le_observeAll (metric : PrefixMetric S) (rows : List (S × ℚ)) :
    metric.loss ≤ (metric.observeAll rows).loss := by
  induction rows generalizing metric with
  | nil => exact le_rfl
  | cons row rows ih => exact (le_max_left _ _).trans (ih (metric.observe row.1 row.2))

lemma observeAll_append (metric : PrefixMetric S) (rows rows' : List (S × ℚ)) :
    metric.observeAll (rows ++ rows') = (metric.observeAll rows).observeAll rows' :=
  List.foldl_append

/-- The state after a prefix is its exact metric. -/
lemma exactMetric_observeAll {navs : List ℚ} (h : ExactMetric navs metric.peak metric.loss)
    (hpos : ∀ x ∈ navs, 0 < x) (hrows : PositiveRows rows) :
    ExactMetric (navs ++ rows.map Prod.snd) (metric.observeAll rows).peak
      (metric.observeAll rows).loss := by
  induction rows generalizing metric navs with
  | nil =>
    rw [List.map_nil, List.append_nil]
    exact h
  | cons row rows ih =>
    have hrow := (hrows row List.mem_cons_self).1
    have hpos' : ∀ x ∈ navs ++ [row.2], 0 < x := by
      intro x hx
      rcases List.mem_append.mp hx with hx | hx
      · exact hpos x hx
      · exact List.mem_singleton.mp hx ▸ hrow
    have hnext : ExactMetric (navs ++ [row.2]) (metric.observe row.1 row.2).peak
        (metric.observe row.1 row.2).loss := h.append hpos hrow
    have hstep := ih hnext hpos' fun row hmem => hrows row (List.mem_cons_of_mem _ hmem)
    rw [List.append_assoc] at hstep
    exact hstep

end Batches

section Advance

variable {S : Type} {decimal : DecimalReader} {metric : PrefixMetric S}
  {state : TrackingObservationState S} {observations : List (Observation S)}

/-- The number that a text holds. -/
def DecimalReader.value (decimal : DecimalReader) (text : String) : ℚ := (decimal.read text).getD 0

def rowsOf (decimal : DecimalReader) (observations : List (Observation S)) : List (S × ℚ) :=
  observations.map fun row => (row.session, decimal.value row.netNav)

/-- Observations of positive NAV. -/
def PositiveNavs (decimal : DecimalReader) (observations : List (Observation S)) : Prop :=
  ∀ row ∈ observations, ∃ nav, decimal.read row.netNav = some nav ∧ 0 < nav

lemma value_eq {text : String} {q : ℚ} (h : decimal.read text = some q) :
    decimal.value text = q := by
  rw [DecimalReader.value, h]
  rfl

lemma positiveRows (h : PositiveNavs decimal observations) :
    PositiveRows (rowsOf decimal observations) := by
  intro row hmem
  obtain ⟨observation, hobservation, rfl⟩ := List.mem_map.mp hmem
  obtain ⟨nav, hnav, hpos⟩ := h observation hobservation
  dsimp only
  rw [value_eq hnav]
  exact ⟨hpos, decimal.isDecimal _ _ hnav⟩

/-- The texts of a state hold the variables of the loop. -/
structure Holds (decimal : DecimalReader) (state : TrackingObservationState S)
    (metric : PrefixMetric S) : Prop where
  session : state.boundarySession = metric.previous
  peak : decimal.read state.peakNetNav = some metric.peak
  loss : decimal.read state.maximumDrawdown = some metric.loss

/-- The canonical texts lose nothing. -/
lemma holds_state (h : metric.Valid) : Holds decimal metric.state metric :=
  ⟨rfl, decimal.read_canonical _ h.peak_decimal, decimal.read_canonical _ h.loss_decimal⟩

lemma buildState_eq (hholds : Holds decimal state metric) (hvalid : metric.Valid) :
    buildState decimal state =
      if metric.loss < 1 then .ok state else .error .stateInvalid := by
  unfold buildState validatePrefix
  rw [hholds.peak, hholds.loss]
  by_cases hloss : metric.loss < 1
  · rw [if_pos hloss]
    exact congrArg (fun check => check >>= fun _ => pure state)
      ((require_ok_iff (u := ())).mpr ⟨hvalid.peak_pos, hvalid.loss_nonneg, hloss⟩)
  · rw [if_neg hloss]
    have hcheck : require (0 < metric.peak ∧ 0 ≤ metric.loss ∧ metric.loss < 1)
        ObservationError.stateInvalid = .error .stateInvalid := if_neg fun h => hloss h.2.2
    exact congrArg (fun check => check >>= fun _ => pure state) hcheck

lemma rowsOf_append (observations observations' : List (Observation S)) :
    rowsOf decimal (observations ++ observations') =
      rowsOf decimal observations ++ rowsOf decimal observations' :=
  List.map_append

variable [LinearOrder S]

/-- Sessions that follow the boundary in increasing order. -/
def Follow (boundary : S) (observations : List (Observation S)) : Prop :=
  (boundary :: observations.map Observation.session).Pairwise (· < ·)

lemma foldlM_observeRow (hnavs : PositiveNavs decimal observations)
    (hfollow : Follow metric.previous observations) :
    observations.foldlM (observeRow decimal) metric =
      .ok (metric.observeAll (rowsOf decimal observations)) := by
  induction observations generalizing metric with
  | nil => rfl
  | cons row rows ih =>
    obtain ⟨nav, hnav, hpos⟩ := hnavs row List.mem_cons_self
    obtain ⟨hfirst, hrest⟩ := List.pairwise_cons.mp hfollow
    have hstep : observeRow decimal metric row =
        .ok (metric.observe row.session (decimal.value row.netNav)) := by
      have hlt := hfirst row.session List.mem_cons_self
      have hchecks : ¬(nav ≤ 0 ∨ row.session ≤ metric.previous) :=
        not_or.mpr ⟨hpos.not_ge, hlt.not_ge⟩
      rw [observeRow, hnav, value_eq hnav]
      exact congrArg (fun check => check >>= fun _ => pure (metric.observe row.session nav))
        ((require_ok_iff (u := ())).mpr hchecks)
    rw [List.foldlM_cons, hstep, ok_bind,
      ih (fun row hmem => hnavs row (List.mem_cons_of_mem _ hmem))
        (show Follow (metric.observe row.session (decimal.value row.netNav)).previous rows
          from hrest)]
    rfl

/-- An Advance is refused just when the drawdown is rounded to one. -/
lemma advance_eq (hholds : Holds decimal state metric) (hvalid : metric.Valid)
    (hnavs : PositiveNavs decimal observations) (hfollow : Follow metric.previous observations)
    (hne : observations ≠ []) :
    advanceTrackingObservationState decimal state observations =
      if (metric.observeAll (rowsOf decimal observations)).loss < 1 then
        .ok (metric.observeAll (rowsOf decimal observations)).state
      else .error .stateInvalid := by
  have hvalid' := hvalid.observeAll (positiveRows hnavs)
  cases observations with
  | nil => exact absurd rfl hne
  | cons first rest =>
    have hfirst := (List.pairwise_cons.mp hfollow).1 first.session List.mem_cons_self
    have hfold : (first :: rest).foldlM (observeRow decimal)
        ⟨metric.previous, metric.peak, metric.loss⟩ =
        .ok (metric.observeAll (rowsOf decimal (first :: rest))) := foldlM_observeRow hnavs hfollow
    rw [← buildState_eq (holds_state hvalid') hvalid']
    unfold advanceTrackingObservationState
    rw [hholds.session, hholds.peak, hholds.loss, List.head?_cons,
      show found (some first) ObservationError.notAfterBoundary = .ok first from rfl, ok_bind,
      (require_ok_iff (u := ())).mpr hfirst.not_ge, ok_bind,
      show found (some metric.peak) ObservationError.stateInvalid = .ok metric.peak from rfl,
      ok_bind,
      show found (some metric.loss) ObservationError.stateInvalid = .ok metric.loss from rfl,
      ok_bind, hfold]
    rfl

lemma follow_append_left {boundary : S} {observations observations' : List (Observation S)}
    (h : Follow boundary (observations ++ observations')) : Follow boundary observations := by
  refine h.sublist (List.Sublist.cons_cons boundary ?_)
  rw [List.map_append]
  exact List.sublist_append_left _ _

lemma follow_observeAll (decimal : DecimalReader) {observations' : List (Observation S)}
    (h : Follow metric.previous (observations ++ observations')) :
    Follow (metric.observeAll (rowsOf decimal observations)).previous observations' := by
  induction observations generalizing metric with
  | nil => exact h
  | cons row rows ih =>
    have hrest : Follow (metric.observe row.session (decimal.value row.netNav)).previous
        (rows ++ observations') := (List.pairwise_cons.mp h).2
    exact ih hrest

/-- Every batch is accepted, and the batches together advance the state as one does. -/
lemma foldlM_batches {batches : List (List (Observation S))} (hholds : Holds decimal state metric)
    (hvalid : metric.Valid) (hnavs : PositiveNavs decimal batches.flatten)
    (hfollow : Follow metric.previous batches.flatten) (hbatches : ∀ batch ∈ batches, batch ≠ [])
    (hloss : (metric.observeAll (rowsOf decimal batches.flatten)).loss < 1) :
    ∃ last, batches.foldlM (advanceTrackingObservationState decimal) state = .ok last ∧
      (batches ≠ [] → last = (metric.observeAll (rowsOf decimal batches.flatten)).state) := by
  induction batches generalizing state metric with
  | nil => exact ⟨state, rfl, fun h => absurd rfl h⟩
  | cons batch batches ih =>
    rw [List.flatten_cons] at hnavs hfollow hloss ⊢
    rw [rowsOf_append, observeAll_append] at hloss ⊢
    have hnavs₁ : PositiveNavs decimal batch := fun row hmem =>
      hnavs row (List.mem_append_left _ hmem)
    have hnavs₂ : PositiveNavs decimal batches.flatten := fun row hmem =>
      hnavs row (List.mem_append_right _ hmem)
    have hvalid' := hvalid.observeAll (positiveRows hnavs₁)
    have hfollow₁ := follow_append_left hfollow
    have hfollow₂ := follow_observeAll decimal hfollow
    have hloss₁ := (loss_le_observeAll _ _).trans_lt hloss
    obtain ⟨last, hlast, hstate⟩ := ih (holds_state hvalid') hvalid' hnavs₂ hfollow₂
      (fun batch hmem => hbatches batch (List.mem_cons_of_mem _ hmem)) hloss
    refine ⟨last, ?_, fun _ => ?_⟩
    · rw [List.foldlM_cons, advance_eq hholds hvalid hnavs₁ hfollow₁
        (hbatches batch List.mem_cons_self), if_pos hloss₁, ok_bind]
      exact hlast
    · by_cases hrest : batches = []
      · subst hrest
        cases hlast
        rfl
      · exact hstate hrest

/-- The initial NAV and the later ones. -/
def navsOf (decimal : DecimalReader) (netNav : String) (observations : List (Observation S)) :
    List ℚ :=
  decimal.value netNav :: observations.map fun row => decimal.value row.netNav

/-- Every split into batches is accepted and gives the state of one pass, whose texts hold the exact
metric within the bounds of the model. -/
def ExactPrefix (decimal : DecimalReader) (session : S) (netNav : String)
    (observations : List (Observation S)) : Prop :=
  ∃ start last, initialTrackingObservationState decimal session netNav = .ok start ∧
    advanceTrackingObservationState decimal start observations = .ok last ∧
    (∀ batches : List (List (Observation S)), batches.flatten = observations →
      (∀ batch ∈ batches, batch ≠ []) →
        batches.foldlM (advanceTrackingObservationState decimal) start = .ok last) ∧
    ∃ peak loss, decimal.read last.peakNetNav = some peak ∧
      decimal.read last.maximumDrawdown = some loss ∧
      ExactMetric (navsOf decimal netNav observations) peak loss ∧ 0 ≤ loss ∧ loss < 1

lemma isDecimal_zero : IsDecimal 0 := ⟨0, 0, by simp⟩

lemma read_zero (decimal : DecimalReader) : decimal.read "0" = some 0 :=
  decimal.read_canonical 0 isDecimal_zero

/-- The tracked prefix has its exact metric just when no NAV is lost against an earlier one in the
rounding of the accounting context. -/
theorem exactPrefix_iff {session : S} {netNav : String} {initialNav : ℚ}
    (hnav : decimal.read netNav = some initialNav) (hpos : 0 < initialNav)
    (hnavs : PositiveNavs decimal observations) (hfollow : Follow session observations)
    (hne : observations ≠ []) :
    ExactPrefix decimal session netNav observations ↔
      ∀ peak nav, AtOrAfter (navsOf decimal netNav observations) peak nav →
        lostRatio * peak < nav := by
  let metric : PrefixMetric S := ⟨session, initialNav, 0⟩
  have hvalid : metric.Valid :=
    ⟨hpos, le_rfl, decimal.isDecimal _ _ hnav, isDecimal_zero⟩
  have hholds : Holds decimal ⟨session, netNav, "0"⟩ metric := ⟨rfl, hnav, read_zero decimal⟩
  have hvalid' := hvalid.observeAll (positiveRows hnavs)
  have hstart : initialTrackingObservationState decimal session netNav =
      .ok ⟨session, netNav, "0"⟩ := by
    rw [initialTrackingObservationState, buildState_eq hholds hvalid, if_pos one_pos]
  have hadvance := advance_eq hholds hvalid hnavs hfollow hne
  have hexact : ExactMetric (navsOf decimal netNav observations)
      (metric.observeAll (rowsOf decimal observations)).peak
      (metric.observeAll (rowsOf decimal observations)).loss := by
    have hstart : ExactMetric [initialNav] metric.peak metric.loss := exactMetric_singleton hpos
    have hrun := exactMetric_observeAll hstart (fun x hx => List.mem_singleton.mp hx ▸ hpos)
      (positiveRows hnavs)
    rw [navsOf, value_eq hnav]
    simpa [rowsOf, Function.comp_def] using hrun
  have hpeaks : ∀ peak nav, AtOrAfter (navsOf decimal netNav observations) peak nav → 0 < peak := by
    intro peak nav hpair
    rcases List.mem_cons.mp hpair.mem.1 with rfl | hmem
    · rwa [value_eq hnav]
    · obtain ⟨row, hrow, rfl⟩ := List.mem_map.mp hmem
      obtain ⟨nav, hread, hnavPos⟩ := hnavs row hrow
      rwa [value_eq hread]
  have hbound : (metric.observeAll (rowsOf decimal observations)).loss < 1 ↔
      ∀ peak nav, AtOrAfter (navsOf decimal netNav observations) peak nav →
        lostRatio * peak < nav := by
    constructor
    · intro hloss peak nav hpair
      exact (drawdown_lt_one_iff (hpeaks peak nav hpair)).mp
        ((hexact.loss.2 ⟨peak, nav, hpair, rfl⟩).trans_lt hloss)
    · intro hall
      obtain ⟨peak, nav, hpair, hloss⟩ := hexact.loss.1
      rw [hloss]
      exact (drawdown_lt_one_iff (hpeaks peak nav hpair)).mpr (hall peak nav hpair)
  rw [← hbound]
  constructor
  · rintro ⟨start, last, hstart', hlast, -⟩
    obtain rfl := Except.ok.inj (hstart.symm.trans hstart')
    by_contra hloss
    rw [hadvance, if_neg hloss] at hlast
    cases hlast
  · intro hloss
    rw [if_pos hloss] at hadvance
    refine ⟨_, _, hstart, hadvance, ?_, _, _, (holds_state hvalid').peak,
      (holds_state hvalid').loss, hexact, hvalid'.loss_nonneg, hloss⟩
    rintro batches rfl hbatches
    obtain ⟨last, hlast, hstate⟩ := foldlM_batches hholds hvalid hnavs hfollow hbatches hloss
    rw [hlast, hstate]
    rintro rfl
    exact hne rfl

end Advance

/-! ### A lost NAV -/

section Sample

lemma isDecimal_readUnsigned {text : List Char} {q : ℚ} (h : readUnsigned text = some q) :
    IsDecimal q := by
  unfold readUnsigned at h
  split at h
  · obtain ⟨_, hc, rfl⟩ := Option.map_eq_some_iff.mp h
    obtain ⟨c, -, hc⟩ := Option.bind_eq_some_iff.mp hc
    cases hc
    exact ⟨c, 0, by simp⟩
  · obtain ⟨c, -, h⟩ := Option.bind_eq_some_iff.mp h
    obtain ⟨e, -, rfl⟩ := Option.map_eq_some_iff.mp h
    exact ⟨c, e, by simp⟩
  · obtain ⟨c, -, h⟩ := Option.bind_eq_some_iff.mp h
    obtain ⟨e, -, rfl⟩ := Option.map_eq_some_iff.mp h
    exact ⟨c, -e, by simp [div_eq_mul_inv]⟩
  · cases h

lemma isDecimal_readDecimal {text : String} {q : ℚ} (h : readDecimal text = some q) :
    IsDecimal q := by
  unfold readDecimal at h
  split at h
  · obtain ⟨r, hr, rfl⟩ := Option.map_eq_some_iff.mp h
    obtain ⟨m, k, rfl⟩ := isDecimal_readUnsigned hr
    exact ⟨-m, k, by push_cast; ring⟩
  · exact isDecimal_readUnsigned h

/-- The reader of canonical texts. -/
def canonicalReader : DecimalReader where
  read := readDecimal
  isDecimal _ _ := isDecimal_readDecimal
  read_canonical _ := readDecimal_canonicalDecimal

/-- A fall to half of the NAV, a new peak and a smaller fall. -/
def twoFalls : List (Observation ℕ) := [⟨1, "5e-1"⟩, ⟨2, "2e+0"⟩, ⟨3, "15e-1"⟩]

/-- They keep their exact metric, and are observed in two batches as at once. -/
theorem exactPrefix_half :
    ExactPrefix canonicalReader 0 "1e+0" twoFalls ∧
      ∃ start last, initialTrackingObservationState canonicalReader 0 "1e+0" = .ok start ∧
        advanceTrackingObservationState canonicalReader start twoFalls = .ok last ∧
        [twoFalls.take 1, twoFalls.drop 1].foldlM (advanceTrackingObservationState canonicalReader)
          start = .ok last := by
  have hone : canonicalReader.read "1e+0" = some 1 := by decide +kernel
  have hpositive : PositiveNavs canonicalReader twoFalls := by
    have hreads : ∀ row ∈ twoFalls, ∃ nav ∈ canonicalReader.read row.netNav, 0 < nav := by
      decide +kernel
    exact hreads
  have hnavs : navsOf canonicalReader "1e+0" twoFalls = [1, 1 / 2, 2, 3 / 2] := by decide +kernel
  have hbounds : ∀ nav ∈ ([1, 1 / 2, 2, 3 / 2] : List ℚ), 1 / 2 ≤ nav ∧ nav ≤ 2 := by
    decide +kernel
  have hkept : ∀ peak nav, AtOrAfter (navsOf canonicalReader "1e+0" twoFalls) peak nav →
      lostRatio * peak < nav := by
    rintro peak nav ⟨i, j, -, hpeak, hnav⟩
    rw [hnavs] at hpeak hnav
    obtain ⟨-, hpeak⟩ := hbounds peak (List.mem_of_getElem? hpeak)
    obtain ⟨hnav, -⟩ := hbounds nav (List.mem_of_getElem? hnav)
    calc lostRatio * peak ≤ lostRatio * 2 :=
          mul_le_mul_of_nonneg_left hpeak (by norm_num [lostRatio])
      _ < 1 / 2 := by norm_num [lostRatio]
      _ ≤ nav := hnav
  have hexact : ExactPrefix canonicalReader 0 "1e+0" twoFalls :=
    (exactPrefix_iff hone one_pos hpositive (by simp [Follow, twoFalls])
      (List.cons_ne_nil _ _)).mpr hkept
  refine ⟨hexact, ?_⟩
  obtain ⟨start, last, hstart, hlast, hbatches, -⟩ := hexact
  exact ⟨start, last, hstart, hlast,
    hbatches [twoFalls.take 1, twoFalls.drop 1] rfl (by decide)⟩

/-- A positive NAV far below the peak is refused: its drawdown is rounded to one. -/
theorem lost_nav_refused : ¬ExactPrefix canonicalReader 0 "1e+0" [⟨1, "1e-60"⟩] := by
  rintro ⟨start, last, hstart, hlast, -⟩
  have hinitial : initialTrackingObservationState canonicalReader 0 "1e+0" =
      .ok ⟨0, "1e+0", "0"⟩ := by decide +kernel
  obtain rfl := Except.ok.inj (hinitial.symm.trans hstart)
  have hrefused : advanceTrackingObservationState canonicalReader ⟨0, "1e+0", "0"⟩
      [⟨1, "1e-60"⟩] = .error .stateInvalid := by decide +kernel
  rw [hrefused] at hlast
  cases hlast

end Sample

end ThesisTrace.DailyTrack
