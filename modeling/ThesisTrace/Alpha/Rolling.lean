import Mathlib.Algebra.BigOperators.Group.List.Basic
import ThesisTrace.Library.SlidingWindow
import ThesisTrace.Alpha.Builtins

/-!
# Rolling builtins as window functions

The monotone deque, the exact running sums and the missing counter compute the direct definition
over the last window of cells.
-/

namespace ThesisTrace.Alpha
open Numeric SlidingWindow

variable {F : Type} [Numeric F]

/-! ### Extremes -/

section Extreme

variable {α β : Type} (value : α → ℚ) (minimum : Bool)

/-- The items that no later one dominates. -/
def extremeStack (items : List α) : List α :=
  items.foldl (fun stack item =>
    stack.rdropWhile (fun other => dominated minimum (value other) (value item)) ++ [item]) []

/-- The extreme of some items; the last one where several are equal. -/
def extreme (items : List α) : Option α := (extremeStack value minimum items).head?

lemma extremeStack_concat (items : List α) (item : α) :
    extremeStack value minimum (items ++ [item]) = (extremeStack value minimum items).rdropWhile
      (fun other => dominated minimum (value other) (value item)) ++ [item] := by
  unfold extremeStack
  rw [List.foldl_append]
  rfl

lemma extremeStack_subset (items : List α) :
    ∀ item ∈ extremeStack value minimum items, item ∈ items := by
  induction items using List.reverseRecOn with
  | nil => exact fun _ h => h
  | append_singleton items last ih =>
    intro item hitem
    rw [extremeStack_concat] at hitem
    rcases List.mem_append.mp hitem with hold | hnew
    · exact List.mem_append_left _ (ih item ((List.rdropWhile_prefix _ _).subset hold))
    · exact List.mem_append_right _ hnew

variable {value minimum} in
lemma mem_of_extreme {items : List α} {item : α} (h : extreme value minimum items = some item) :
    item ∈ items :=
  extremeStack_subset value minimum items item (List.mem_of_mem_head? h)

variable {value minimum} in
/-- Items of the same values have the same extreme. -/
lemma extreme_map {value' : β → ℚ} {g : α → β} {items : List α}
    (h : ∀ item ∈ items, value' (g item) = value item) :
    extreme value' minimum (items.map g) = (extreme value minimum items).map g := by
  have hstack : extremeStack value' minimum (items.map g)
      = (extremeStack value minimum items).map g := by
    induction items using List.reverseRecOn with
    | nil => rfl
    | append_singleton items last ih =>
      have hprior := ih fun item hitem => h item (List.mem_append_left _ hitem)
      rw [List.map_append, List.map_singleton, extremeStack_concat, extremeStack_concat, hprior,
        rdropWhile_map, List.map_append, List.map_singleton, h last (by simp)]
      congr 2
      apply rdropWhile_congr
      intro item hitem
      rw [h item (List.mem_append_left _ (extremeStack_subset value minimum items item hitem))]
  rw [extreme, hstack, List.head?_map]
  rfl

/-- The candidates that pushing some entries leaves. -/
def candidatesOf (entries : List (ℕ × α)) : List (ℕ × α) :=
  entries.foldl (fun candidates entry => pushCandidate value minimum candidates entry.1 entry.2) []

lemma candidatesOf_concat (entries : List (ℕ × α)) (entry : ℕ × α) :
    candidatesOf value minimum (entries ++ [entry])
      = pushCandidate value minimum (candidatesOf value minimum entries) entry.1 entry.2 := by
  unfold candidatesOf
  rw [List.foldl_append]
  rfl

lemma candidatesOf_subset (entries : List (ℕ × α)) :
    ∀ candidate ∈ candidatesOf value minimum entries, candidate ∈ entries := by
  induction entries using List.reverseRecOn with
  | nil => exact fun _ h => h
  | append_singleton entries entry ih =>
    intro candidate hcandidate
    rw [candidatesOf_concat, pushCandidate] at hcandidate
    rcases List.mem_append.mp hcandidate with hold | hnew
    · exact List.mem_append_left _ (ih candidate ((List.rdropWhile_prefix _ _).subset hold))
    · exact List.mem_append_right _ hnew

/-- The first entry matters only while it is a candidate itself. -/
lemma candidatesOf_cons (first : ℕ × α) (entries : List (ℕ × α)) :
    candidatesOf value minimum (first :: entries) = candidatesOf value minimum entries
      ∨ candidatesOf value minimum (first :: entries)
        = first :: candidatesOf value minimum entries := by
  induction entries using List.reverseRecOn with
  | nil => exact .inr rfl
  | append_singleton entries entry ih =>
    rw [← List.cons_append, candidatesOf_concat, candidatesOf_concat]
    rcases ih with hgone | hkept
    · exact .inl (by rw [hgone])
    · rw [hkept]
      unfold pushCandidate
      have hpop := rdropWhile_cons (fun candidate => dominated minimum (value candidate.2)
        (value entry.2)) first (candidatesOf value minimum entries)
      rcases hpop with hpop | hpop
      · exact .inl (by rw [hpop])
      · exact .inr (by rw [hpop, List.cons_append])

lemma dropWhile_candidatesOf {entries : List (ℕ × α)} {expired : ℕ}
    (hentries : ∀ entry ∈ entries, expired < entry.1) :
    (candidatesOf value minimum entries).dropWhile
        (fun candidate => decide (candidate.1 ≤ expired))
      = candidatesOf value minimum entries := by
  rw [List.dropWhile_eq_self_iff]
  intro hpos
  have hmem := hentries _ (candidatesOf_subset value minimum entries _ (List.getElem_mem hpos))
  simpa using hmem

/-- An expired entry leaves the front of the deque. -/
lemma dropWhile_candidatesOf_cons {first : ℕ × α} {entries : List (ℕ × α)} {expired : ℕ}
    (hfirst : first.1 ≤ expired) (hentries : ∀ entry ∈ entries, expired < entry.1) :
    (candidatesOf value minimum (first :: entries)).dropWhile
        (fun candidate => decide (candidate.1 ≤ expired))
      = candidatesOf value minimum entries := by
  have hkept := dropWhile_candidatesOf value minimum hentries
  rcases candidatesOf_cons value minimum first entries with hgone | hstays
  · rw [hgone, hkept]
  · rw [hstays, List.dropWhile_cons_of_pos (by simpa using hfirst), hkept]

/-- The front of the deque is the extreme of the pushed items. -/
lemma candidatesOf_map_snd (entries : List (ℕ × α)) :
    (candidatesOf value minimum entries).map Prod.snd
      = extremeStack value minimum (entries.map Prod.snd) := by
  induction entries using List.reverseRecOn with
  | nil => rfl
  | append_singleton entries entry ih =>
    rw [candidatesOf_concat, List.map_append, List.map_singleton, extremeStack_concat, ← ih,
      pushCandidate, List.map_append, List.map_singleton, rdropWhile_map]

/-- The cells of a window that are there, with their indices. -/
def entries (w n : ℕ) (series : Series α) : List (ℕ × α) :=
  (recent w n series.zipIdx).filterMap fun cell => cell.1.map (cell.2, ·)

omit minimum in
lemma entries_map_snd (w n : ℕ) (series : Series α) :
    (entries w n series).map Prod.snd = (recent w n series).reduceOption := by
  have hcells : recent w n series = (recent w n series.zipIdx).map Prod.fst := by
    rw [← recent_map, List.zipIdx_map_fst]
  rw [hcells, entries, List.map_filterMap, List.reduceOption, List.filterMap_map]
  apply List.filterMap_congr
  intro ⟨item, index⟩ _
  cases item <;> rfl

lemma lt_of_mem_entries {w n : ℕ} {series : Series α} {entry : ℕ × α}
    (h : entry ∈ entries w n series) : n - w ≤ entry.1 := by
  obtain ⟨cell, hcell, hentry⟩ := List.mem_filterMap.mp h
  obtain ⟨item, _, rfl⟩ := Option.map_eq_some_iff.mp hentry
  obtain ⟨offset, hoffset⟩ := List.getElem?_of_mem hcell
  unfold recent at hoffset
  rw [List.getElem?_drop, List.getElem?_take] at hoffset
  split at hoffset
  · rw [List.getElem?_zipIdx] at hoffset
    obtain ⟨_, _, rfl⟩ := Option.map_eq_some_iff.mp hoffset
    simp
  · cases hoffset

/-- Before the window is full, a cell only enters. -/
lemma entries_succ_of_lt {w n : ℕ} {series : Series α} (hw : n < w) (hn : n < series.length) :
    entries w (n + 1) series = entries w n series ++ (series[n].map (n, ·)).toList := by
  have hlength : n < series.zipIdx.length := by rwa [List.length_zipIdx]
  unfold entries
  rw [recent_succ_of_lt hw hlength, List.filterMap_append, List.getElem_zipIdx]
  cases series[n] <;> simp

/-- Once it is full, the oldest cell leaves it. -/
lemma entries_succ_of_le {w n : ℕ} {series : Series α} (hw : w ≤ n) (hn : n < series.length) :
    entries w n series ++ (series[n].map (n, ·)).toList
      = (series[n - w].map (n - w, ·)).toList ++ entries w (n + 1) series := by
  have hlength : n < series.zipIdx.length := by rwa [List.length_zipIdx]
  have hrecent := congrArg (List.filterMap fun cell : Option α × ℕ => cell.1.map (cell.2, ·))
    (recent_succ_of_le hw hlength)
  rw [List.filterMap_append, List.filterMap_cons, List.getElem_zipIdx, List.getElem_zipIdx]
    at hrecent
  unfold entries
  cases h : series[n] <;> cases h' : series[n - w] <;> simp_all

/-- What the loop of a rolling extreme keeps: its deque stands for a list of entries, its counter
for a list of cells. -/
structure ExtremeStandsFor (entries : List (ℕ × α)) (cells : Series α)
    (state : RollingExtreme α) : Prop where
  candidates : state.candidates = candidatesOf value minimum entries
  missing : state.missing = missing cells

variable {value minimum}

lemma ExtremeStandsFor.push {entries : List (ℕ × α)} {cells : Series α}
    {state : RollingExtreme α} (h : ExtremeStandsFor value minimum entries cells state)
    (index : ℕ) (cell : Option α) :
    ExtremeStandsFor value minimum (entries ++ (cell.map (index, ·)).toList) (cells ++ [cell])
      (state.push value minimum index cell) := by
  cases cell with
  | none =>
    refine ⟨?_, ?_⟩
    · rw [Option.map_none, Option.toList_none, List.append_nil]
      exact h.candidates
    · rw [missing_concat, ← h.missing]
      rfl
  | some item =>
    refine ⟨?_, ?_⟩
    · simp only [Option.map_some, Option.toList_some, candidatesOf_concat, ← h.candidates]
      rfl
    · rw [missing_concat, ← h.missing]
      exact (add_zero _).symm

lemma ExtremeStandsFor.expire {entries : List (ℕ × α)} {cells : Series α} {expired : ℕ}
    {cell : Option α} {state : RollingExtreme α}
    (h : ExtremeStandsFor value minimum ((cell.map (expired, ·)).toList ++ entries)
      (cell :: cells) state)
    (hentries : ∀ entry ∈ entries, expired < entry.1) :
    ExtremeStandsFor value minimum entries cells (state.expire expired cell) := by
  have hmissing := h.missing
  rw [missing_cons] at hmissing
  cases cell with
  | none =>
    refine ⟨?_, ?_⟩
    · have hcandidates := h.candidates
      simp only [Option.map_none, Option.toList_none, List.nil_append] at hcandidates
      simp only [RollingExtreme.expire, hcandidates]
      exact dropWhile_candidatesOf value minimum hentries
    · simp [RollingExtreme.expire, hmissing]
  | some item =>
    refine ⟨?_, ?_⟩
    · have hcandidates := h.candidates
      simp only [Option.map_some, Option.toList_some, List.singleton_append] at hcandidates
      simp only [RollingExtreme.expire, hcandidates]
      exact dropWhile_candidatesOf_cons value minimum (Nat.le_refl _) hentries
    · simpa [RollingExtreme.expire] using hmissing

/-- One step of the loop slides the window. -/
lemma rollingExtremeStep_slides {w n : ℕ} {series : Series α} {state : RollingExtreme α}
    (hn : n < series.length)
    (h : ExtremeStandsFor value minimum (entries w n series) (recent w n series) state) :
    ExtremeStandsFor value minimum (entries w (n + 1) series) (recent w (n + 1) series)
      (rollingExtremeStep value minimum w series state n) := by
  have hcell : series[n]?.join = series[n] := by
    rw [List.getElem?_eq_getElem hn]
    rfl
  have hpushed := h.push n series[n]
  unfold rollingExtremeStep
  rw [hcell]
  by_cases hw : w ≤ n
  · have hexpired : series[n - w]?.join = series[n - w] := by
      rw [List.getElem?_eq_getElem (by omega)]
      rfl
    rw [entries_succ_of_le hw hn, recent_succ_of_le hw hn] at hpushed
    have hlater : ∀ entry ∈ entries w (n + 1) series, n - w < entry.1 := by
      intro entry hentry
      have hle := lt_of_mem_entries hentry
      omega
    have hkept := hpushed.expire hlater
    simp only [if_pos hw, hexpired]
    exact ⟨hkept.candidates, hkept.missing⟩
  · rw [← entries_succ_of_lt (by omega) hn, ← recent_succ_of_lt (by omega) hn] at hpushed
    simp only [if_neg hw]
    exact ⟨hpushed.candidates, hpushed.missing⟩

@[simp] lemma RollingExtreme.push_result (state : RollingExtreme α) (index : ℕ)
    (cell : Option α) : (state.push value minimum index cell).result = state.result := by
  cases cell <;> rfl

@[simp] lemma RollingExtreme.expire_result (state : RollingExtreme α) (expired : ℕ)
    (cell : Option α) : (state.expire expired cell).result = state.result := rfl

/-- The step reports the front of the deque that it leaves. -/
lemma rollingExtremeStep_result (w : ℕ) (series : Series α) (state : RollingExtreme α) (n : ℕ) :
    (rollingExtremeStep value minimum w series state n).result = state.result ++
      [if w ≤ n + 1 ∧ (rollingExtremeStep value minimum w series state n).missing = 0 then
        (rollingExtremeStep value minimum w series state n).candidates.head?.map Prod.snd
      else none] := by
  unfold rollingExtremeStep
  by_cases hw : w ≤ n <;> simp [hw]

lemma candidatesOf_entries_head? (w n : ℕ) (series : Series α) :
    (candidatesOf value minimum (entries w n series)).head?.map Prod.snd
      = extreme value minimum (recent w n series).reduceOption := by
  rw [extreme, ← entries_map_snd, ← candidatesOf_map_snd, List.head?_map]

/-- The monotone deque computes the extreme of every complete window. -/
theorem rollingExtreme_eq_windowed (value : α → ℚ) (minimum : Bool) (w : ℕ) (series : Series α) :
    rollingExtreme value minimum w series = windowed w (extreme value minimum) series := by
  let out (index : ℕ) : Option α :=
    if w ≤ index + 1 ∧ (recent w (index + 1) series).all Option.isSome then
      extreme value minimum (recent w (index + 1) series).reduceOption
    else none
  let I (n : ℕ) (state : RollingExtreme α) : Prop :=
    ExtremeStandsFor value minimum (entries w n series) (recent w n series) state
      ∧ state.result = (List.range n).map out
  have hinit : I 0 ⟨[], 0, []⟩ := ⟨⟨by simp [entries, candidatesOf], by simp⟩, rfl⟩
  have hloop : I series.length ((List.range series.length).foldl
      (rollingExtremeStep value minimum w series) ⟨[], 0, []⟩) := by
    apply foldl_range_invariant hinit
    rintro n hn state ⟨hstands, hresult⟩
    have hslides := rollingExtremeStep_slides hn hstands
    refine ⟨hslides, ?_⟩
    rw [rollingExtremeStep_result, hresult, List.range_succ, List.map_append]
    simp only [hslides.missing, hslides.candidates, candidatesOf_entries_head?,
      missing_eq_zero_iff]
    rfl
  exact hloop.2

end Extreme

/-! ### Standard deviations -/

/-- The deviation of the scaled values of a window. -/
def deviation (w : ℕ) (values : List ℤ) : Option F :=
  populationDeviation w values.sum (values.map fun exact => exact * exact).sum

/-- The running sums of a deviation stand for the cells of its queue. -/
structure DeviationStandsFor (cells : Series ℤ) (state : RollingDeviation F) : Prop where
  queue : state.queue = cells
  missing : state.missing = missing cells
  total : state.total = cells.reduceOption.sum
  squares : state.squares = (cells.reduceOption.map fun exact => exact * exact).sum

omit [Numeric F] in
lemma DeviationStandsFor.push {cells : Series ℤ} {state : RollingDeviation F}
    (h : DeviationStandsFor cells state) (cell : Option ℤ) :
    DeviationStandsFor (cells ++ [cell]) (state.push cell) := by
  cases cell with
  | none =>
    refine ⟨by rw [← h.queue]; rfl, ?_, ?_, ?_⟩
    · rw [missing_concat, ← h.missing]
      rfl
    · simp [RollingDeviation.push, List.reduceOption_append, h.total]
    · simp [RollingDeviation.push, List.reduceOption_append, h.squares]
  | some exact =>
    refine ⟨by rw [← h.queue]; rfl, ?_, ?_, ?_⟩
    · rw [missing_concat, ← h.missing]
      exact (add_zero _).symm
    · simp [RollingDeviation.push, List.reduceOption_append, h.total]
    · simp [RollingDeviation.push, List.reduceOption_append, h.squares]

omit [Numeric F] in
lemma DeviationStandsFor.pop {cells : Series ℤ} {cell : Option ℤ} {state : RollingDeviation F}
    (h : DeviationStandsFor (cell :: cells) state) : DeviationStandsFor cells state.pop := by
  have hmissing := h.missing
  have htotal := h.total
  have hsquares := h.squares
  rw [missing_cons] at hmissing
  unfold RollingDeviation.pop
  rw [h.queue]
  cases cell with
  | none => exact ⟨rfl, by simp [hmissing], by simpa using htotal, by simpa using hsquares⟩
  | some exact =>
    refine ⟨rfl, by simpa using hmissing, ?_, ?_⟩
    · simp [htotal]
    · simp [hsquares]

omit [Numeric F] in
@[simp] lemma RollingDeviation.push_result (state : RollingDeviation F) (cell : Option ℤ) :
    (state.push cell).result = state.result := by
  cases cell <;> rfl

omit [Numeric F] in
@[simp] lemma RollingDeviation.pop_result (state : RollingDeviation F) :
    state.pop.result = state.result := by
  unfold RollingDeviation.pop
  split <;> rfl

lemma rollingDeviationStep_slides {w n : ℕ} {series : Series ℤ} {state : RollingDeviation F}
    (hn : n < series.length) (h : DeviationStandsFor (recent w n series) state) :
    DeviationStandsFor (recent w (n + 1) series)
      (rollingDeviationStep w state series[n]?.join) := by
  have hcell : series[n]?.join = series[n] := by
    rw [List.getElem?_eq_getElem hn]
    rfl
  have hpushed := h.push series[n]
  have hlength : (state.push series[n]).queue.length = min w n + 1 := by
    rw [hpushed.queue, List.length_append, recent_length hn.le, List.length_singleton]
  unfold rollingDeviationStep
  rw [hcell]
  by_cases hw : w ≤ n
  · rw [recent_succ_of_le hw hn] at hpushed
    have hkept := hpushed.pop
    simp only [if_pos (show w < (state.push series[n]).queue.length by omega)]
    exact ⟨hkept.queue, hkept.missing, hkept.total, hkept.squares⟩
  · rw [← recent_succ_of_lt (by omega) hn] at hpushed
    simp only [if_neg (show ¬w < (state.push series[n]).queue.length by omega)]
    exact ⟨hpushed.queue, hpushed.missing, hpushed.total, hpushed.squares⟩

lemma rollingDeviationStep_result (w : ℕ) (state : RollingDeviation F) (cell : Option ℤ) :
    (rollingDeviationStep w state cell).result = state.result ++
      [if (rollingDeviationStep w state cell).queue.length ≠ w
          ∨ (rollingDeviationStep w state cell).missing ≠ 0 then none
        else populationDeviation w (rollingDeviationStep w state cell).total
          (rollingDeviationStep w state cell).squares] := by
  unfold rollingDeviationStep
  by_cases hw : w < (state.push cell).queue.length <;> simp [hw]

/-- The exact running sums compute the deviation of every complete window. -/
theorem populationStd_eq_windowed (w : ℕ) (series : Series ℤ) :
    populationStd w series = (windowed w (deviation w) series : Series F) := by
  let out (index : ℕ) : Option F :=
    if w ≤ index + 1 ∧ (recent w (index + 1) series).all Option.isSome then
      deviation w (recent w (index + 1) series).reduceOption
    else none
  let I (n : ℕ) (state : RollingDeviation F) : Prop :=
    DeviationStandsFor (recent w n series) state ∧ state.result = (List.range n).map out
  have hinit : I 0 ⟨[], 0, 0, 0, []⟩ := ⟨⟨by simp, by simp, by simp, by simp⟩, rfl⟩
  have hloop : I series.length (series.foldl (rollingDeviationStep w) ⟨[], 0, 0, 0, []⟩) := by
    rw [foldl_eq_foldl_range]
    apply foldl_range_invariant hinit
    rintro n hn state ⟨hstands, hresult⟩
    have hslides := rollingDeviationStep_slides hn hstands
    refine ⟨hslides, ?_⟩
    have hlength : (recent w (n + 1) series).length = min w (n + 1) := recent_length hn
    have hcomplete : (min w (n + 1) ≠ w ∨ missing (recent w (n + 1) series) ≠ 0)
        ↔ ¬(w ≤ n + 1 ∧ (recent w (n + 1) series).all Option.isSome) := by
      rw [← missing_eq_zero_iff]
      omega
    rw [rollingDeviationStep_result, hresult, List.range_succ, List.map_append]
    simp only [hslides.queue, hslides.missing, hslides.total, hslides.squares, hlength,
      hcomplete, ite_not]
    rfl
  exact hloop.2

/-! ### Totals -/

/-- The exact sum of a window over an integer. -/
def total (divisor : ℕ) (values : List F) : Option F :=
  finite (ofRat ((values.map toRat).sum / divisor))

/-- An exact running total stands for some cells. -/
structure TotalStandsFor (cells : Series F) (state : RollingTotal F exactSum) : Prop where
  buckets : state.buckets = (cells.reduceOption.map toRat).sum
  missing : state.missing = missing cells

lemma TotalStandsFor.push {cells : Series F} {state : RollingTotal F exactSum}
    (h : TotalStandsFor cells state) (cell : Option F) :
    TotalStandsFor (cells ++ [cell]) (state.push cell) := by
  cases cell with
  | none =>
    refine ⟨?_, ?_⟩
    · rw [List.reduceOption_append, List.reduceOption_cons_of_none, List.reduceOption_nil,
        List.append_nil]
      exact h.buckets
    · rw [missing_concat, ← h.missing]
      rfl
  | some value =>
    refine ⟨?_, ?_⟩
    · have hsum : (state.push (some value)).buckets = exactSum.add state.buckets value := rfl
      rw [hsum, h.buckets, List.reduceOption_append, List.map_append, List.sum_append]
      simp [exactSum]
    · rw [missing_concat, ← h.missing]
      exact (add_zero _).symm

lemma TotalStandsFor.expire {cells : Series F} {cell : Option F}
    {state : RollingTotal F exactSum} (h : TotalStandsFor (cell :: cells) state)
    (hfinite : ∀ value, cell = some value → isFinite value = true) :
    TotalStandsFor cells (state.expire cell) := by
  have hmissing := h.missing
  have hbuckets := h.buckets
  rw [missing_cons] at hmissing
  cases cell with
  | none =>
    refine ⟨?_, ?_⟩
    · rw [List.reduceOption_cons_of_none] at hbuckets
      exact hbuckets
    · simp [RollingTotal.expire, hmissing]
  | some value =>
    refine ⟨?_, ?_⟩
    · have hsum : (state.expire (some value)).buckets = exactSum.add state.buckets (neg value) :=
        rfl
      rw [hsum, hbuckets, List.reduceOption_cons_of_some, List.map_cons, List.sum_cons]
      change toRat value + _ + toRat (neg value) = _
      rw [toRat_neg value (hfinite value rfl)]
      exact add_neg_cancel_comm _ _
    · simpa [RollingTotal.expire] using hmissing

@[simp] lemma RollingTotal.push_result {sum : RollingSum F} (state : RollingTotal F sum)
    (cell : Option F) : (state.push cell).result = state.result := by
  cases cell <;> rfl

@[simp] lemma RollingTotal.expire_result {sum : RollingSum F} (state : RollingTotal F sum)
    (cell : Option F) : (state.expire cell).result = state.result := by
  cases cell <;> rfl

lemma rollingTotalStep_slides {w n : ℕ} (divisor : ℕ) {series : Series F}
    {state : RollingTotal F exactSum}
    (hfinite : ∀ value, some value ∈ series → isFinite value = true)
    (hn : n < series.length) (h : TotalStandsFor (recent w n series) state) :
    TotalStandsFor (recent w (n + 1) series)
      (rollingTotalStep exactSum w divisor series state n) := by
  have hcell : series[n]?.join = series[n] := by
    rw [List.getElem?_eq_getElem hn]
    rfl
  have hpushed := h.push series[n]
  unfold rollingTotalStep
  rw [hcell]
  by_cases hw : w ≤ n
  · have hexpired : series[n - w]?.join = series[n - w] := by
      rw [List.getElem?_eq_getElem (by omega)]
      rfl
    rw [recent_succ_of_le hw hn] at hpushed
    have hkept := hpushed.expire fun value hvalue => hfinite value (hvalue ▸ List.getElem_mem _)
    simp only [if_pos hw, hexpired]
    exact ⟨hkept.buckets, hkept.missing⟩
  · rw [← recent_succ_of_lt (by omega) hn] at hpushed
    simp only [if_neg hw]
    exact ⟨hpushed.buckets, hpushed.missing⟩

lemma rollingTotalStep_result (sum : RollingSum F) (w divisor : ℕ) (series : Series F)
    (state : RollingTotal F sum) (n : ℕ) :
    (rollingTotalStep sum w divisor series state n).result = state.result ++
      [if w ≤ n + 1 ∧ (rollingTotalStep sum w divisor series state n).missing = 0 then
        sum.project (rollingTotalStep sum w divisor series state n).buckets divisor
      else none] := by
  unfold rollingTotalStep
  by_cases hw : w ≤ n <;> simp [hw]

/-- In exact arithmetic a rolling total is the sum of every complete window. -/
theorem rollingTotal_eq_windowed (w divisor : ℕ) {series : Series F}
    (hfinite : ∀ value, some value ∈ series → isFinite value = true) :
    rollingTotal exactSum w divisor series = windowed w (total divisor) series := by
  let out (index : ℕ) : Option F :=
    if w ≤ index + 1 ∧ (recent w (index + 1) series).all Option.isSome then
      total divisor (recent w (index + 1) series).reduceOption
    else none
  let I (n : ℕ) (state : RollingTotal F exactSum) : Prop :=
    TotalStandsFor (recent w n series) state ∧ state.result = (List.range n).map out
  have hinit : I 0 ⟨exactSum.empty, 0, []⟩ := by
    refine ⟨⟨?_, by simp⟩, rfl⟩
    rw [recent_zero]
    rfl
  have hloop : I series.length ((List.range series.length).foldl
      (rollingTotalStep exactSum w divisor series) ⟨exactSum.empty, 0, []⟩) := by
    apply foldl_range_invariant hinit
    rintro n hn state ⟨hstands, hresult⟩
    have hslides := rollingTotalStep_slides divisor hfinite hn hstands
    refine ⟨hslides, ?_⟩
    rw [rollingTotalStep_result, hresult, List.range_succ, List.map_append]
    simp only [hslides.missing, hslides.buckets, missing_eq_zero_iff]
    rfl
  exact hloop.2

lemma rollingTotal_length (sum : RollingSum F) (w divisor : ℕ) (series : Series F) :
    (rollingTotal sum w divisor series).length = series.length := by
  let I (n : ℕ) (state : RollingTotal F sum) : Prop := state.result.length = n
  have hloop : I series.length ((List.range series.length).foldl
      (rollingTotalStep sum w divisor series) ⟨sum.empty, 0, []⟩) := by
    apply foldl_range_invariant (show I 0 ⟨sum.empty, 0, []⟩ from rfl)
    intro n _ state hstate
    change (rollingTotalStep sum w divisor series state n).result.length = n + 1
    rw [rollingTotalStep_result, List.length_append, hstate, List.length_singleton]
  exact hloop

/-- A rolling total has finite cells. -/
lemma isFinite_of_mem_rollingTotal {sum : RollingSum F} {w divisor : ℕ} {series : Series F}
    {value : F} (h : some value ∈ rollingTotal sum w divisor series) : isFinite value = true := by
  let I (_ : ℕ) (state : RollingTotal F sum) : Prop :=
    ∀ value, some value ∈ state.result → isFinite value = true
  have hinit : I 0 ⟨sum.empty, 0, []⟩ := fun _ hmem => nomatch hmem
  have hloop : I series.length ((List.range series.length).foldl
      (rollingTotalStep sum w divisor series) ⟨sum.empty, 0, []⟩) := by
    apply foldl_range_invariant hinit
    intro n _ state hstate value hvalue
    rw [rollingTotalStep_result] at hvalue
    rcases List.mem_append.mp hvalue with hold | hnew
    · exact hstate value hold
    · rw [List.mem_singleton] at hnew
      split at hnew
      · exact sum.finite_of_project _ _ _ hnew.symm
      · cases hnew
  exact hloop value h

lemma isFinite_of_populationDeviation {w : ℕ} {total squares : ℤ} {value : F}
    (h : populationDeviation w total squares = some value) : isFinite value = true := by
  unfold populationDeviation at h
  obtain ⟨variance, hvariance, rfl⟩ := Option.map_eq_some_iff.mp h
  by_cases hpos : 0 < toRat variance
  · rw [if_pos hpos]
    exact isFinite_sqrt _ (isFinite_of_finite hvariance) hpos.le
  · rw [if_neg hpos]
    have hzero : isFinite (ofInt 0 : F) = true := isFinite_ofInt_of_abs_le_one (by decide)
    exact isFinite_sqrt _ hzero (by simp [ofInt, toRat_zero])

end ThesisTrace.Alpha
