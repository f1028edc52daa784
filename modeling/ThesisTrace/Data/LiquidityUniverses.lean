import Mathlib.Algebra.BigOperators.Group.List.Basic
import Mathlib.Data.List.Dedup
import Mathlib.Data.List.Sort
import Mathlib.Data.Prod.Lex
import ThesisTrace.Library.KeyOrder
import ThesisTrace.Library.SlidingWindow
import ThesisTrace.Strategy.Orders

/-!
# Liquidity universes

The instruments of a session by their average turnover over the trailing window. The window grows
from the start of the coverage to 20 sessions and slides after that. Decimals are rationals.
-/

namespace ThesisTrace.LiquidityUniverses
open SlidingWindow
open scoped KeyOrder
open Strategy (TradingState)

/-! ### Inputs -/

structure PoolRow (S I : Type) where
  session : S
  instrumentIds : List I

structure PriceRow (S I : Type) where
  session : S
  instrumentId : I
  turnoverCny : ℚ

structure StateRow (S I : Type) where
  session : S
  instrumentId : I
  state : TradingState

structure Inputs (S I : Type) where
  sessions : List S
  basePool : List (PoolRow S I)
  prices : List (PriceRow S I)
  states : List (StateRow S I)

inductive UniverseStatus
  | available
  deriving DecidableEq, Repr

structure UniverseRow (S I : Type) where
  session : S
  instrumentIds : List I
  status : UniverseStatus
  deriving DecidableEq

def universeSizes : List ℕ := [300, 1000, 2000, 3000]

def universeName (size : ℕ) : String := s!"top{size}"

section Model

variable {S I : Type} [DecidableEq S] [LinearOrder I] (inputs : Inputs S I)

/-- The row that a dictionary keeps for a key: the last one. -/
def lastRow {R : Type} (named : R → Bool) (rows : List R) : Option R := rows.reverse.find? named

/-- `turnover.get((session, instrument_id))` -/
def turnover (session : S) (instrumentId : I) : Option ℚ :=
  (lastRow (fun row => row.session = session && row.instrumentId = instrumentId)
    inputs.prices).map PriceRow.turnoverCny

/-- `trading_state_by_position.get((session, instrument_id))` -/
def tradingStateByPosition (session : S) (instrumentId : I) : Option TradingState :=
  (lastRow (fun row => row.session = session && row.instrumentId = instrumentId)
    inputs.states).map StateRow.state

/-- `base_pool_by_session.get(session, frozenset())`, in some order -/
def basePoolBySession (session : S) : List I :=
  (((lastRow (fun row => row.session = session) inputs.basePool).map
    PoolRow.instrumentIds).getD []).dedup

def coverageStartMembers : List I :=
  (inputs.sessions.head?.map (basePoolBySession inputs)).getD []

/-- The loop over a window, which ends with the first session that has no value. -/
def windowValues (instrumentId : I) : List S → List ℚ → List ℚ
  | [], values => values
  | session :: window, values =>
    if instrumentId ∉ basePoolBySession inputs session then values
    else if tradingStateByPosition inputs session instrumentId = some .fullSessionSuspension then
      windowValues instrumentId window (values ++ [0])
    else
      match turnover inputs session instrumentId with
      | none => values
      | some value => windowValues instrumentId window (values ++ [value])

/-- The score of a member of the base pool at the session of an index. -/
def score (index : ℕ) (instrumentId : I) : Option (ℚ × I) :=
  let window := (inputs.sessions.take (index + 1)).drop (index - 19)
  if index < 19 ∧ instrumentId ∉ coverageStartMembers inputs then none
  else
    let values := windowValues inputs instrumentId window []
    if values.length = window.length then some (values.sum / window.length, instrumentId)
    else none

/-- `(-item[0], item[1])` -/
def scoreKey (item : ℚ × I) : ℚ ×ₗ I := toLex (-item.1, item.2)

/-- The ranking at the session of an index, for an order in which the base pool is iterated. -/
def rankedMembers (members : List I) (index : ℕ) : List I :=
  ((members.filterMap (score inputs index)).insertionSort fun a b =>
    scoreKey a ≤ scoreKey b).map Prod.snd

def rankedBySession (index : ℕ) (session : S) : List I :=
  rankedMembers inputs (basePoolBySession inputs session) index

def liquidityUniverses : List (String × List (UniverseRow S I)) :=
  universeSizes.map fun size =>
    (universeName size, inputs.sessions.zipIdx.map fun entry =>
      ⟨entry.1, (rankedBySession inputs entry.2 entry.1).take size, .available⟩)

end Model

/-! ### Rankings -/

section Rankings

variable {S I : Type} [DecidableEq S] [LinearOrder I] (inputs : Inputs S I)

/-- What a session contributes to an average: no turnover under a suspension of the session. -/
def amount (session : S) (instrumentId : I) : Option ℚ :=
  if tradingStateByPosition inputs session instrumentId = some .fullSessionSuspension then some 0
  else turnover inputs session instrumentId

/-- The last 20 sessions up to an index, or fewer at the start of the coverage -/
def trailingWindow (index : ℕ) : List S := recent 20 (index + 1) inputs.sessions

/-- In the base pool on the session, with an amount -/
def HasAmount (session : S) (instrumentId : I) : Prop :=
  instrumentId ∈ basePoolBySession inputs session ∧ (amount inputs session instrumentId).isSome

/-- In the base pool on every session of the window, with an amount on each of them -/
def Eligible (index : ℕ) (instrumentId : I) : Prop :=
  ∀ session ∈ trailingWindow inputs index, HasAmount inputs session instrumentId

def averageTurnover (index : ℕ) (instrumentId : I) : ℚ :=
  ((trailingWindow inputs index).map fun session =>
    (amount inputs session instrumentId).getD 0).sum / (trailingWindow inputs index).length

/-- By average turnover, the largest first, then by identifier -/
def Before (index : ℕ) (a b : I) : Prop :=
  averageTurnover inputs index b < averageTurnover inputs index a ∨
    averageTurnover inputs index a = averageTurnover inputs index b ∧ a < b

/-- A list is the ranking at the session of an index. -/
structure Ranks (index : ℕ) (ranking : List I) : Prop where
  mem_iff : ∀ instrumentId, instrumentId ∈ ranking ↔ Eligible inputs index instrumentId
  ordered : ranking.Pairwise (Before inputs index)

variable {index : ℕ} {instrumentId : I}

/-! ### The loop over a window -/

lemma windowValues_cons (instrumentId : I) (session : S) (window : List S) (values : List ℚ) :
    (¬ HasAmount inputs session instrumentId ∧
      windowValues inputs instrumentId (session :: window) values = values) ∨
    (HasAmount inputs session instrumentId ∧
      windowValues inputs instrumentId (session :: window) values =
        windowValues inputs instrumentId window
          (values ++ [(amount inputs session instrumentId).getD 0])) := by
  rw [windowValues]
  unfold HasAmount amount
  by_cases hpool : instrumentId ∈ basePoolBySession inputs session
  · by_cases hstate :
        tradingStateByPosition inputs session instrumentId = some .fullSessionSuspension
    · simp [hpool, hstate]
    · cases hvalue : turnover inputs session instrumentId with
      | none => simp [hpool, hstate]
      | some value => simp [hpool, hstate]
  · simp [hpool]

/-- A window with an amount for each session gives them all. -/
lemma windowValues_of_forall {window : List S} (values : List ℚ)
    (h : ∀ session ∈ window, HasAmount inputs session instrumentId) :
    windowValues inputs instrumentId window values =
      values ++ window.map fun session => (amount inputs session instrumentId).getD 0 := by
  induction window generalizing values with
  | nil => simp [windowValues]
  | cons session window ih =>
    obtain ⟨hhead, htail⟩ := List.forall_mem_cons.mp h
    obtain ⟨hnot, -⟩ | ⟨-, hnext⟩ := windowValues_cons inputs instrumentId session window values
    · exact absurd hhead hnot
    · rw [hnext, ih _ htail, List.append_assoc, List.map_cons, List.singleton_append]

/-- The loop gives a value for each session just when every session has an amount. -/
lemma length_windowValues_eq_iff (window : List S) (values : List ℚ) :
    (windowValues inputs instrumentId window values).length = values.length + window.length ↔
      ∀ session ∈ window, HasAmount inputs session instrumentId := by
  induction window generalizing values with
  | nil => simp [windowValues]
  | cons session window ih =>
    rw [List.forall_mem_cons]
    obtain ⟨hnot, hend⟩ | ⟨hhas, hnext⟩ := windowValues_cons inputs instrumentId session window values
    · rw [hend, List.length_cons]
      constructor
      · intro h
        omega
      · exact fun h => absurd h.1 hnot
    · have hrest := ih (values ++ [(amount inputs session instrumentId).getD 0])
      rw [hnext, and_iff_right hhas, ← hrest]
      simp only [List.length_append, List.length_cons, List.length_nil]
      omega

/-! ### The ranking of a session -/

omit [DecidableEq S] [LinearOrder I] in
lemma trailingWindow_eq (index : ℕ) :
    trailingWindow inputs index = (inputs.sessions.take (index + 1)).drop (index - 19) := by
  unfold trailingWindow recent
  congr 1

omit [DecidableEq S] [LinearOrder I] in
lemma mem_trailingWindow {session : S} (hget : inputs.sessions[index]? = some session) :
    session ∈ trailingWindow inputs index := by
  obtain ⟨hlt, rfl⟩ := List.getElem?_eq_some_iff.mp hget
  rw [trailingWindow_eq]
  refine List.mem_iff_getElem.mpr ⟨index - (index - 19), ?_, ?_⟩
  · rw [List.length_drop, List.length_take]
    omega
  · rw [List.getElem_drop, List.getElem_take]
    congr 1
    omega

/-- Whoever is eligible before the window slides is a member at the coverage start. -/
lemma mem_coverageStartMembers (h : Eligible inputs index instrumentId) (hindex : index < 19)
    (hlt : index < inputs.sessions.length) : instrumentId ∈ coverageStartMembers inputs := by
  cases hsessions : inputs.sessions with
  | nil => simp [hsessions] at hlt
  | cons first rest =>
    have hmem : first ∈ trailingWindow inputs index := by
      rw [trailingWindow_eq, hsessions, Nat.sub_eq_zero_of_le (by omega)]
      simp
    simpa [coverageStartMembers, hsessions] using (h first hmem).1

lemma score_of_eligible (h : Eligible inputs index instrumentId)
    (hlt : index < inputs.sessions.length) :
    score inputs index instrumentId =
      some (averageTurnover inputs index instrumentId, instrumentId) := by
  have hstart : ¬ (index < 19 ∧ instrumentId ∉ coverageStartMembers inputs) :=
    fun hskip => hskip.2 (mem_coverageStartMembers inputs h hskip.1 hlt)
  have hvalues := windowValues_of_forall inputs [] h
  rw [List.nil_append] at hvalues
  unfold score averageTurnover
  rw [if_neg hstart, ← trailingWindow_eq, hvalues]
  simp

lemma eligible_of_score {item : ℚ × I} (h : score inputs index instrumentId = some item) :
    Eligible inputs index instrumentId := by
  unfold score at h
  rw [← trailingWindow_eq] at h
  split at h
  · cases h
  · dsimp only at h
    split at h
    · next hlength =>
      exact (length_windowValues_eq_iff inputs _ []).mp (by simpa using hlength)
    · cases h

omit [LinearOrder I] in
lemma scoreKey_injective : Function.Injective (scoreKey : ℚ × I → ℚ ×ₗ I) := by
  rintro ⟨a, i⟩ ⟨b, j⟩ h
  simpa [scoreKey] using h

lemma before_iff {i j : I} : Before inputs index i j ↔
    scoreKey (averageTurnover inputs index i, i) < scoreKey (averageTurnover inputs index j, j) := by
  simp [Before, scoreKey, Prod.Lex.toLex_lt_toLex]

lemma not_before_self (i : I) : ¬ Before inputs index i i := by
  rw [before_iff]
  exact lt_irrefl _

lemma filterMap_score (members : List I) (hlt : index < inputs.sessions.length) :
    ∀ item ∈ members.filterMap (score inputs index),
      item = (averageTurnover inputs index item.2, item.2) ∧ Eligible inputs index item.2 := by
  intro item hitem
  obtain ⟨i, -, hscore⟩ := List.mem_filterMap.mp hitem
  have heligible := eligible_of_score inputs hscore
  rw [score_of_eligible inputs heligible hlt, Option.some.injEq] at hscore
  subst hscore
  exact ⟨rfl, heligible⟩

lemma mem_rankedMembers {members : List I} (hlt : index < inputs.sessions.length) :
    instrumentId ∈ rankedMembers inputs members index ↔
      instrumentId ∈ members ∧ Eligible inputs index instrumentId := by
  simp only [rankedMembers, List.mem_map, List.mem_insertionSort, List.mem_filterMap]
  constructor
  · rintro ⟨item, ⟨i, hi, hscore⟩, rfl⟩
    have heligible := eligible_of_score inputs hscore
    rw [score_of_eligible inputs heligible hlt, Option.some.injEq] at hscore
    subst hscore
    exact ⟨hi, heligible⟩
  · rintro ⟨hi, heligible⟩
    exact ⟨_, ⟨instrumentId, hi, score_of_eligible inputs heligible hlt⟩, rfl⟩

lemma nodup_filterMap_score {members : List I} (hmembers : members.Nodup)
    (hlt : index < inputs.sessions.length) : (members.filterMap (score inputs index)).Nodup := by
  refine hmembers.filterMap fun i j item hi hj => ?_
  rw [Option.mem_def] at hi hj
  rw [score_of_eligible inputs (eligible_of_score inputs hi) hlt, Option.some.injEq] at hi
  rw [score_of_eligible inputs (eligible_of_score inputs hj) hlt, Option.some.injEq] at hj
  rw [← hj] at hi
  exact congrArg Prod.snd hi

lemma rankedMembers_ordered {members : List I} (hmembers : members.Nodup)
    (hlt : index < inputs.sessions.length) :
    (rankedMembers inputs members index).Pairwise (Before inputs index) := by
  have hperm := List.perm_insertionSort (fun a b => scoreKey a ≤ scoreKey b)
    (members.filterMap (score inputs index))
  have hsorted := List.pairwise_insertionSort (fun a b => scoreKey a ≤ scoreKey b)
    (members.filterMap (score inputs index))
  have hnodup := hperm.nodup_iff.mpr (nodup_filterMap_score inputs hmembers hlt)
  have hitems := filterMap_score inputs members hlt
  rw [rankedMembers, List.pairwise_map]
  refine List.Pairwise.imp_of_mem (fun {a b} ha hb hle => ?_) (hsorted.and hnodup)
  obtain ⟨hle, hne⟩ := hle
  have hkey : scoreKey a < scoreKey b :=
    lt_of_le_of_ne hle fun heq => hne (scoreKey_injective heq)
  rw [(hitems a (hperm.mem_iff.mp ha)).1, (hitems b (hperm.mem_iff.mp hb)).1] at hkey
  exact (before_iff inputs).mpr hkey

theorem rankedBySession_ranks {session : S} (hget : inputs.sessions[index]? = some session) :
    Ranks inputs index (rankedBySession inputs index session) := by
  obtain ⟨hlt, -⟩ := List.getElem?_eq_some_iff.mp hget
  refine ⟨fun i => ?_, rankedMembers_ordered inputs (List.nodup_dedup _) hlt⟩
  rw [rankedBySession, mem_rankedMembers inputs hlt, and_iff_right_iff_imp]
  exact fun heligible => (heligible session (mem_trailingWindow inputs hget)).1

lemma Ranks.nodup {ranking : List I} (h : Ranks inputs index ranking) : ranking.Nodup :=
  h.ordered.imp fun {a b} hbefore => by
    rintro rfl
    exact not_before_self inputs a hbefore

/-- There is one ranking, whatever the order in which a base pool is iterated. -/
theorem Ranks.unique {extended : Inputs S I} {ranking ranking' : List I}
    (h : Ranks inputs index ranking) (h' : Ranks extended index ranking')
    (heligible : ∀ i, Eligible inputs index i ↔ Eligible extended index i)
    (haverage : averageTurnover inputs index = averageTurnover extended index) :
    ranking = ranking' := by
  have hperm : ranking.Perm ranking' := by
    rw [List.perm_ext_iff_of_nodup (h.nodup inputs) (h'.nodup extended)]
    intro i
    rw [h.mem_iff, h'.mem_iff, heligible]
  have hordered : ranking'.Pairwise (Before inputs index) := by
    refine h'.ordered.imp fun {a b} hbefore => ?_
    rwa [Before, haverage]
  refine hperm.eq_of_pairwise (fun a b _ _ hab hba => ?_) h.ordered hordered
  rw [before_iff] at hab hba
  exact absurd hab hba.asymm

/-! ### Later sessions -/

/-- The coverage continues, and says the same about its earlier sessions. -/
structure Extends (inputs extended : Inputs S I) : Prop where
  sessions : inputs.sessions <+: extended.sessions
  basePool : ∀ session ∈ inputs.sessions,
    (extended.basePool.filter fun row => row.session = session) =
      inputs.basePool.filter fun row => row.session = session
  prices : ∀ session ∈ inputs.sessions,
    (extended.prices.filter fun row => row.session = session) =
      inputs.prices.filter fun row => row.session = session
  states : ∀ session ∈ inputs.sessions,
    (extended.states.filter fun row => row.session = session) =
      inputs.states.filter fun row => row.session = session

lemma lastRow_filter {R : Type} (p named : R → Bool) (rows : List R) :
    lastRow named (rows.filter p) = lastRow (fun row => p row && named row) rows := by
  simp [lastRow, ← List.filter_reverse, List.find?_filter]

lemma Extends.hasAmount {extended : Inputs S I} (h : Extends inputs extended) {session : S}
    (hsession : session ∈ inputs.sessions) (i : I) :
    basePoolBySession extended session = basePoolBySession inputs session ∧
      amount extended session i = amount inputs session i := by
  have hpool : basePoolBySession extended session = basePoolBySession inputs session := by
    have hrows := congrArg (lastRow fun _ => true) (h.basePool session hsession)
    rw [lastRow_filter, lastRow_filter] at hrows
    simp only [Bool.and_true] at hrows
    rw [basePoolBySession, basePoolBySession, hrows]
  have hturnover : turnover extended session i = turnover inputs session i := by
    have hrows := congrArg (lastRow fun row => row.instrumentId = i) (h.prices session hsession)
    rw [lastRow_filter, lastRow_filter] at hrows
    rw [turnover, turnover, hrows]
  have hstate : tradingStateByPosition extended session i =
      tradingStateByPosition inputs session i := by
    have hrows := congrArg (lastRow fun row => row.instrumentId = i) (h.states session hsession)
    rw [lastRow_filter, lastRow_filter] at hrows
    rw [tradingStateByPosition, tradingStateByPosition, hrows]
  exact ⟨hpool, by rw [amount, amount, hturnover, hstate]⟩

omit [LinearOrder I] in
lemma Extends.trailingWindow_eq {extended : Inputs S I} (h : Extends inputs extended)
    (hlt : index < inputs.sessions.length) :
    trailingWindow extended index = trailingWindow inputs index := by
  obtain ⟨later, hlater⟩ := h.sessions
  rw [trailingWindow, trailingWindow, recent, recent, ← hlater,
    List.take_append_of_le_length (by omega)]

lemma Extends.eligible_iff {extended : Inputs S I} (h : Extends inputs extended)
    (hlt : index < inputs.sessions.length) (i : I) :
    Eligible inputs index i ↔ Eligible extended index i := by
  rw [Eligible, Eligible, h.trailingWindow_eq inputs hlt]
  refine forall₂_congr fun session hsession => ?_
  obtain ⟨hpool, hamount⟩ := h.hasAmount inputs (mem_of_mem_recent hsession) i
  rw [HasAmount, HasAmount, hpool, hamount]

lemma Extends.averageTurnover_eq {extended : Inputs S I} (h : Extends inputs extended)
    (hlt : index < inputs.sessions.length) :
    averageTurnover inputs index = averageTurnover extended index := by
  funext i
  rw [averageTurnover, averageTurnover, h.trailingWindow_eq inputs hlt]
  have hvalues : ((trailingWindow inputs index).map fun session =>
      (amount extended session i).getD 0) = (trailingWindow inputs index).map fun session =>
        (amount inputs session i).getD 0 := by
    refine List.map_congr_left fun session hsession => ?_
    rw [(h.hasAmount inputs (mem_of_mem_recent hsession) i).2]
  rw [hvalues]

omit [LinearOrder I] in
/-- Later sessions with their pools, prices and states extend a coverage. -/
lemma extends_append (later : Inputs S I)
    (hpool : ∀ row ∈ later.basePool, row.session ∉ inputs.sessions)
    (hprices : ∀ row ∈ later.prices, row.session ∉ inputs.sessions)
    (hstates : ∀ row ∈ later.states, row.session ∉ inputs.sessions) :
    Extends inputs ⟨inputs.sessions ++ later.sessions, inputs.basePool ++ later.basePool,
      inputs.prices ++ later.prices, inputs.states ++ later.states⟩ := by
  have hfilter {R : Type} (sessionOf : R → S) (rows laterRows : List R)
      (hlater : ∀ row ∈ laterRows, sessionOf row ∉ inputs.sessions) {session : S}
      (hsession : session ∈ inputs.sessions) :
      ((rows ++ laterRows).filter fun row => sessionOf row = session) =
        rows.filter fun row => sessionOf row = session := by
    have hnone : (laterRows.filter fun row => sessionOf row = session) = [] := by
      rw [List.filter_eq_nil_iff]
      intro row hrow heq
      exact hlater row hrow (of_decide_eq_true heq ▸ hsession)
    rw [List.filter_append, hnone, List.append_nil]
  exact ⟨List.prefix_append _ _,
    fun _ hsession => hfilter PoolRow.session _ _ hpool hsession,
    fun _ hsession => hfilter PriceRow.session _ _ hprices hsession,
    fun _ hsession => hfilter StateRow.session _ _ hstates hsession⟩

/-- The universes of the earlier sessions stay what they are. -/
lemma Extends.liquidityUniverses_eq {extended : Inputs S I} (h : Extends inputs extended) :
    ((liquidityUniverses extended).map fun named =>
      (named.1, named.2.take inputs.sessions.length)) = liquidityUniverses inputs := by
  obtain ⟨later, hlater⟩ := h.sessions
  rw [liquidityUniverses, liquidityUniverses, List.map_map]
  refine List.map_congr_left fun size _ => ?_
  rw [Function.comp_apply, ← hlater, List.zipIdx_append, List.map_append,
    List.take_left' (by simp)]
  congr 1
  refine List.map_congr_left fun entry hentry => ?_
  have hget : inputs.sessions[entry.2]? = some entry.1 := by
    obtain ⟨hlt, hget⟩ := List.mem_zipIdx' hentry
    exact List.getElem?_eq_some_iff.mpr ⟨hlt, hget.symm⟩
  obtain ⟨hlt, -⟩ := List.getElem?_eq_some_iff.mp hget
  have hget' : extended.sessions[entry.2]? = some entry.1 := by
    rw [← hlater, List.getElem?_append_left hlt, hget]
  rw [Ranks.unique inputs (rankedBySession_ranks inputs hget) (rankedBySession_ranks extended hget')
    (h.eligible_iff inputs hlt) (h.averageTurnover_eq inputs hlt)]

/-- The ranking at an index of the coverage -/
def rankingAt (index : ℕ) : List I :=
  (inputs.sessions[index]?.map (rankedBySession inputs index)).getD []

lemma rankingAt_eq {session : S} (hget : inputs.sessions[index]? = some session) :
    rankingAt inputs index = rankedBySession inputs index session := by
  rw [rankingAt, hget, Option.map_some, Option.getD_some]

lemma rankingAt_ranks (hlt : index < inputs.sessions.length) :
    Ranks inputs index (rankingAt inputs index) := by
  have hget := List.getElem?_eq_getElem hlt
  rw [rankingAt_eq inputs hget]
  exact rankedBySession_ranks inputs hget

lemma liquidityUniverses_eq_rankingAt : liquidityUniverses inputs = universeSizes.map fun size =>
    (universeName size, inputs.sessions.zipIdx.map fun entry =>
      ⟨entry.1, (rankingAt inputs entry.2).take size, .available⟩) := by
  refine List.map_congr_left fun size _ => ?_
  congr 1
  refine List.map_congr_left fun entry hentry => ?_
  obtain ⟨hlt, hget⟩ := List.mem_zipIdx' hentry
  rw [rankingAt_eq inputs (List.getElem?_eq_some_iff.mpr ⟨hlt, hget.symm⟩)]

theorem liquidity_universes_ranked (inputs : Inputs S I) :
    ∃ ranking : ℕ → List I,
      (∀ index < inputs.sessions.length, Ranks inputs index (ranking index)) ∧
      (liquidityUniverses inputs = universeSizes.map fun size =>
        (universeName size, inputs.sessions.zipIdx.map fun entry =>
          ⟨entry.1, (ranking entry.2).take size, .available⟩)) ∧
      (∀ index < inputs.sessions.length, (ranking index).Nodup) ∧
      (∀ index size larger, size ≤ larger →
        (ranking index).take size <+: (ranking index).take larger) ∧
      ∀ extended, Extends inputs extended →
        ((liquidityUniverses extended).map fun named =>
          (named.1, named.2.take inputs.sessions.length)) = liquidityUniverses inputs := by
  refine ⟨rankingAt inputs, fun index hlt => rankingAt_ranks inputs hlt,
    liquidityUniverses_eq_rankingAt inputs,
    fun index hlt => (rankingAt_ranks inputs hlt).nodup inputs,
    fun index size larger hle => List.take_prefix_take_left hle,
    fun extended h => h.liquidityUniverses_eq inputs⟩

end Rankings

/-! ### A coverage of two sessions -/

/-- The second instrument is suspended on the second session, and the third one enters the pool. -/
def sampleInputs : Inputs ℕ ℕ where
  sessions := [1, 2]
  basePool := [⟨1, [10, 20]⟩, ⟨2, [30, 20, 10]⟩]
  prices := [⟨1, 10, 40⟩, ⟨1, 20, 90⟩, ⟨2, 10, 44⟩, ⟨2, 30, 99⟩]
  states := [⟨2, 20, .fullSessionSuspension⟩]

def sampleLater : Inputs ℕ ℕ where
  sessions := [3]
  basePool := [⟨3, [30, 10]⟩]
  prices := [⟨3, 10, 1⟩, ⟨3, 30, 7⟩]
  states := []

theorem liquidity_universes_ranked_sample :
    let extended : Inputs ℕ ℕ := ⟨sampleInputs.sessions ++ sampleLater.sessions,
      sampleInputs.basePool ++ sampleLater.basePool, sampleInputs.prices ++ sampleLater.prices,
      sampleInputs.states ++ sampleLater.states⟩
    ((liquidityUniverses extended).map fun named => (named.1, named.2.take 2)) =
        liquidityUniverses sampleInputs ∧
      ((liquidityUniverses extended).map fun named => named.2.map UniverseRow.instrumentIds).head? =
        some [[20, 10], [20, 10], [10]] := by
  obtain ⟨_, _, _, _, _, hextends⟩ := liquidity_universes_ranked sampleInputs
  exact ⟨hextends _ (extends_append sampleInputs sampleLater (by decide) (by decide) (by decide)),
    by decide +kernel⟩

end ThesisTrace.LiquidityUniverses
