import Mathlib.Algebra.BigOperators.Ring.Finset
import Mathlib.Data.List.Find
import Mathlib.Tactic.Linarith
import ThesisTrace.Library.IndexLoop
import ThesisTrace.Strategy.Metrics

/-!
# Streaming metrics against one-shot metrics

`Observes` relates the streaming state to the rows that it has seen. It is kept by every row,
so feeding a list in batches gives the metrics of the whole list, except for the annualized
returns of a list without a rebalance row.
-/

namespace ThesisTrace.Strategy
open Transaction IndexLoop

variable {F : Type} {B : Binary64 F}

lemma quotient_of_ne {a b : ℚ} (h : b ≠ 0) : quotient a b = .ok (a / b) :=
  if_neg h

lemma quotient_ok_iff {a b c : ℚ} : quotient a b = .ok c ↔ b ≠ 0 ∧ a / b = c := by
  unfold quotient
  split <;> simp_all

/-! ### The drawdown scan -/

/-- The indices of a scan over the first `n` entries. -/
def ScanBound (n : Nat) (scan : DrawdownScan) : Prop :=
  scan.peakIndex ≤ n - 1 ∧ scan.worstPeak ≤ n - 1 ∧ scan.worstTrough ≤ n - 1 ∧
    0 ≤ scan.worstValue

/-- The index of the running peak after one more entry. -/
def DrawdownScan.nextPeak (scan : DrawdownScan) (netNav : List ℚ) (index : Nat) : Nat :=
  if netNav.getD scan.peakIndex 0 < netNav.getD index 0 then index else scan.peakIndex

/-- The scan after an entry whose drawdown from the running peak is known. -/
def DrawdownScan.next (scan : DrawdownScan) (peakIndex index : Nat) (drawdown : ℚ) :
    DrawdownScan :=
  if scan.worstValue < drawdown then ⟨peakIndex, drawdown, peakIndex, index⟩
  else ⟨peakIndex, scan.worstValue, scan.worstPeak, scan.worstTrough⟩

lemma drawdownStep_eq (netNav : List ℚ) (scan : DrawdownScan) (index : Nat) :
    drawdownStep netNav scan index =
      quotient (netNav.getD index 0) (netNav.getD (scan.nextPeak netNav index) 0) >>= fun ratio =>
        .ok (scan.next (scan.nextPeak netNav index) index (1 - ratio)) := by
  unfold drawdownStep DrawdownScan.nextPeak DrawdownScan.next
  dsimp only
  congr 1
  funext ratio
  split <;> rfl

lemma nextPeak_le {netNav : List ℚ} {scan : DrawdownScan} {index : Nat}
    (h : scan.peakIndex ≤ index - 1) : scan.nextPeak netNav index ≤ index := by
  unfold DrawdownScan.nextPeak
  split <;> omega

lemma next_bound {scan : DrawdownScan} {peakIndex index : Nat} {drawdown : ℚ}
    (hbound : ScanBound index scan) (hpeak : peakIndex ≤ index) :
    ScanBound (index + 1) (scan.next peakIndex index drawdown) := by
  obtain ⟨_, hworstPeak, hworstTrough, hworst⟩ := hbound
  unfold DrawdownScan.next
  split
  · exact ⟨hpeak, hpeak, le_rfl, hworst.trans (le_of_lt ‹_›)⟩
  · exact ⟨hpeak, by dsimp only; omega, by dsimp only; omega, hworst⟩

lemma drawdownStep_bound {netNav : List ℚ} {scan scan' : DrawdownScan} {index : Nat}
    (hbound : ScanBound index scan) (h : drawdownStep netNav scan index = .ok scan') :
    ScanBound (index + 1) scan' := by
  rw [drawdownStep_eq, bind_ok_iff] at h
  obtain ⟨ratio, _, hnext⟩ := h
  rw [← Except.ok.inj hnext]
  exact next_bound hbound (nextPeak_le hbound.1)

lemma drawdownScan_bound {netNav : List ℚ} {scan : DrawdownScan}
    (h : drawdownScan netNav = .ok scan) : ScanBound netNav.length scan :=
  foldlM_range_invariant (I := ScanBound) ⟨le_rfl, le_rfl, le_rfl, le_rfl⟩
    (fun _ _ _ _ hbound hstep => drawdownStep_bound hbound hstep) h

/-- One more row is one more step of the scan. -/
lemma drawdownScan_append (netNav : List ℚ) (nav : ℚ) :
    drawdownScan (netNav ++ [nav]) =
      drawdownScan netNav >>= fun scan => drawdownStep (netNav ++ [nav]) scan netNav.length := by
  unfold drawdownScan
  rw [List.length_append, List.length_singleton, foldlM_range_succ]
  congr 1
  refine foldlM_range_congr (I := ScanBound) ⟨le_rfl, le_rfl, le_rfl, le_rfl⟩ ?_
    fun _ _ _ _ hbound hstep => drawdownStep_bound hbound hstep
  intro index scan hindex hbound
  have hpeak : scan.peakIndex < netNav.length := by
    have hle := hbound.1
    omega
  have hread : ∀ i, i < netNav.length → (netNav ++ [nav]).getD i 0 = netNav.getD i 0 :=
    fun i hi => getD_append_of_lt [nav] 0 hi
  have hsame : scan.nextPeak (netNav ++ [nav]) index = scan.nextPeak netNav index := by
    unfold DrawdownScan.nextPeak
    rw [hread index hindex, hread scan.peakIndex hpeak]
  have hnext : scan.nextPeak netNav index < netNav.length :=
    (nextPeak_le hbound.1).trans_lt hindex
  rw [drawdownStep_eq, drawdownStep_eq, hsame, hread index hindex, hread _ hnext]

lemma recoveryIndex_append {netNav : List ℚ} {nav worst : ℚ} (peakIndex peakIndex' : Nat)
    {worstPeak worstTrough : Nat} (htrough : worstTrough < netNav.length)
    (hpeak : worstPeak < netNav.length) :
    recoveryIndex (netNav ++ [nav]) ⟨peakIndex', worst, worstPeak, worstTrough⟩ =
      (recoveryIndex netNav ⟨peakIndex, worst, worstPeak, worstTrough⟩).or
        (if 0 < worst ∧ netNav.getD worstPeak 0 ≤ nav then some netNav.length else none) := by
  unfold recoveryIndex
  dsimp only
  rw [List.length_append, List.length_singleton,
    show netNav.length + 1 - (worstTrough + 1) = netNav.length - (worstTrough + 1) + 1 by omega,
    List.range'_1_concat, List.find?_append,
    show worstTrough + 1 + (netNav.length - (worstTrough + 1)) = netNav.length by omega]
  congr 1
  · apply List.find?_congr
    intro index hindex
    rw [List.mem_range'_1] at hindex
    rw [getD_append_of_lt [nav] 0 hpeak,
      getD_append_of_lt [nav] 0 (show index < netNav.length by omega)]
  · simp only [List.find?_singleton, getD_append_of_lt [nav] 0 hpeak, getD_append_last,
      decide_eq_true_eq]

lemma recoveryIndex_last {netNav : List ℚ} {nav worst : ℚ} {peakIndex worstPeak : Nat} :
    recoveryIndex (netNav ++ [nav]) ⟨peakIndex, worst, worstPeak, netNav.length⟩ = none := by
  simp [recoveryIndex]

/-! ### The peaks -/

/-- No running maximum of the net NAV is zero. -/
def PeaksNonzero (netNav : List ℚ) : Prop :=
  ∀ index < netNav.length, runningMaximum netNav index ≠ 0

lemma runningMaximum_append {netNav : List ℚ} (nav : ℚ) {index : Nat}
    (hindex : index < netNav.length) :
    runningMaximum (netNav ++ [nav]) index = runningMaximum netNav index := by
  unfold runningMaximum
  rw [List.take_append_of_le_length (by omega), getD_append_of_lt [nav] 0 (by omega)]

lemma runningMaximum_last {netNav : List ℚ} (nav : ℚ) (hpos : 0 < netNav.length) :
    runningMaximum (netNav ++ [nav]) netNav.length =
      max (runningMaximum netNav (netNav.length - 1)) nav := by
  unfold runningMaximum
  rw [List.take_of_length_le (by simp), List.take_of_length_le (by omega), List.foldl_append,
    getD_append_of_lt [nav] 0 hpos]
  rfl

lemma peaksNonzero_append {netNav : List ℚ} (nav : ℚ) (hpos : 0 < netNav.length) :
    PeaksNonzero (netNav ++ [nav]) ↔ PeaksNonzero netNav ∧
      max (runningMaximum netNav (netNav.length - 1)) nav ≠ 0 := by
  unfold PeaksNonzero
  rw [← runningMaximum_last nav hpos, List.length_append, List.length_singleton]
  constructor
  · intro h
    refine ⟨fun index hindex => ?_, h _ (by omega)⟩
    rw [← runningMaximum_append nav hindex]
    exact h index (by omega)
  · rintro ⟨hbefore, hlast⟩ index hindex
    rcases Nat.lt_succ_iff_lt_or_eq.mp hindex with hlt | rfl
    · rw [runningMaximum_append nav hlt]
      exact hbefore index hlt
    · exact hlast

lemma peaksNonzero_singleton (nav : ℚ) : PeaksNonzero [nav] ↔ nav ≠ 0 := by
  simp [PeaksNonzero, runningMaximum]

/-- The entry at the peak index is the running maximum. -/
def AtPeak (netNav : List ℚ) (scan : DrawdownScan) : Prop :=
  netNav.getD scan.peakIndex 0 = runningMaximum netNav (netNav.length - 1)

@[simp] lemma next_peakIndex (scan : DrawdownScan) (peakIndex index : Nat) (drawdown : ℚ) :
    (scan.next peakIndex index drawdown).peakIndex = peakIndex := by
  unfold DrawdownScan.next
  split <;> rfl

lemma getD_nextPeak {netNav : List ℚ} {nav : ℚ} {scan : DrawdownScan}
    (hpeak : scan.peakIndex < netNav.length) :
    (netNav ++ [nav]).getD (scan.nextPeak (netNav ++ [nav]) netNav.length) 0 =
      max (netNav.getD scan.peakIndex 0) nav := by
  unfold DrawdownScan.nextPeak
  rw [getD_append_of_lt [nav] 0 hpeak, getD_append_last]
  split
  · rw [getD_append_last, max_eq_right (le_of_lt ‹_›)]
  · rw [getD_append_of_lt [nav] 0 hpeak, max_eq_left (not_lt.mp ‹_›)]

/-- The scan of one more entry, when no peak is zero. -/
lemma drawdownStep_append {netNav : List ℚ} {nav : ℚ} {scan : DrawdownScan}
    (hpeak : scan.peakIndex < netNav.length)
    (hne : max (netNav.getD scan.peakIndex 0) nav ≠ 0) :
    drawdownStep (netNav ++ [nav]) scan netNav.length =
      .ok (scan.next (scan.nextPeak (netNav ++ [nav]) netNav.length) netNav.length
        (1 - nav / max (netNav.getD scan.peakIndex 0) nav)) := by
  rw [drawdownStep_eq, getD_nextPeak hpeak, getD_append_last, quotient_of_ne hne]
  rfl

lemma drawdownScan_singleton {nav : ℚ} (h : nav ≠ 0) :
    drawdownScan [nav] = .ok ⟨0, 0, 0, 0⟩ := by
  have hstep : drawdownStep [nav] ⟨0, 0, 0, 0⟩ 0 = .ok ⟨0, 0, 0, 0⟩ := by
    simp [drawdownStep, quotient, h, bind, Except.bind, pure, Except.pure]
  exact (foldlM_singleton (drawdownStep [nav]) _ 0).trans hstep

lemma drawdownScan_atPeak {netNav : List ℚ} {scan : DrawdownScan}
    (h : drawdownScan netNav = .ok scan) (hpos : 0 < netNav.length) :
    AtPeak netNav scan ∧ PeaksNonzero netNav := by
  induction netNav using List.reverseRecOn generalizing scan with
  | nil => cases hpos
  | append_singleton netNav nav ih =>
    rw [drawdownScan_append, bind_ok_iff] at h
    obtain ⟨prior, hprior, hstep⟩ := h
    rcases Nat.eq_zero_or_pos netNav.length with hzero | hlength
    · obtain rfl := List.length_eq_zero_iff.mp hzero
      simp only [drawdownScan, List.length_nil, List.range_zero, List.foldlM_nil,
        pure_ok_iff] at hprior
      subst hprior
      rw [drawdownStep_eq, bind_ok_iff] at hstep
      obtain ⟨ratio, hratio, hnext⟩ := hstep
      rw [quotient_ok_iff] at hratio
      have hindex : DrawdownScan.nextPeak ⟨0, 0, 0, 0⟩ ([] ++ [nav]) ([] : List ℚ).length = 0 := by
        simp [DrawdownScan.nextPeak]
      rw [hindex] at hratio
      rw [List.nil_append, peaksNonzero_singleton]
      refine ⟨?_, by simpa using hratio.1⟩
      rw [AtPeak, ← Except.ok.inj hnext, next_peakIndex, hindex]
      simp [runningMaximum]
    · obtain ⟨hpeakAt, hpeaks⟩ := ih hprior hlength
      have hbound := (drawdownScan_bound hprior).1
      have hpeak : prior.peakIndex < netNav.length := by omega
      rw [drawdownStep_eq, getD_nextPeak hpeak, bind_ok_iff] at hstep
      obtain ⟨ratio, hratio, hnext⟩ := hstep
      rw [quotient_ok_iff, hpeakAt] at hratio
      refine ⟨?_, (peaksNonzero_append nav hlength).mpr ⟨hpeaks, hratio.1⟩⟩
      rw [AtPeak, ← Except.ok.inj hnext, next_peakIndex, getD_nextPeak hpeak, hpeakAt,
        List.length_append, List.length_singleton, Nat.add_sub_cancel,
        runningMaximum_last nav hlength]

/-! ### The streaming state -/

/-- The session of the row at an index. -/
def sessionAt (daily : List (DailyRow F)) (index : Nat) : Session :=
  (daily[index]?.map DailyRow.session).getD 0

lemma sessionAt_append {daily : List (DailyRow F)} (row : DailyRow F) {index : Nat}
    (h : index < daily.length) : sessionAt (daily ++ [row]) index = sessionAt daily index := by
  unfold sessionAt
  rw [List.getElem?_append_left h]

lemma sessionAt_last (daily : List (DailyRow F)) (row : DailyRow F) :
    sessionAt (daily ++ [row]) daily.length = row.session := by
  simp [sessionAt]

/-- The drawdown entries of the state are those that the indices of the scan point at. -/
structure DrawdownMatches (daily : List (DailyRow F)) (scan : DrawdownScan)
    (state : ObservedState F) : Prop where
  scan_eq : drawdownScan (daily.map DailyRow.netNav) = .ok scan
  peakNav : state.peakNetNav = (daily.map DailyRow.netNav).getD scan.peakIndex 0
  peakSession : state.peakSession = sessionAt daily scan.peakIndex
  worst : state.worstDrawdown = scan.worstValue
  worstPeakNav : state.worstPeakNav = (daily.map DailyRow.netNav).getD scan.worstPeak 0
  worstPeakSession : state.worstPeakSession = sessionAt daily scan.worstPeak
  worstTroughSession : state.worstTroughSession = sessionAt daily scan.worstTrough
  recovery : state.worstRecoverySession =
    (recoveryIndex (daily.map DailyRow.netNav) scan).map (sessionAt daily)

/-- A recovery found by the state stays the first one. -/
lemma recovery_append {daily : List (DailyRow F)} {row : DailyRow F} {worst : ℚ}
    (peakIndex peakIndex' : Nat) {worstPeak worstTrough : Nat}
    (htrough : worstTrough < daily.length) (hpeak : worstPeak < daily.length) :
    (recoveryIndex ((daily ++ [row]).map DailyRow.netNav)
        ⟨peakIndex', worst, worstPeak, worstTrough⟩).map (sessionAt (daily ++ [row])) =
      ((recoveryIndex (daily.map DailyRow.netNav)
        ⟨peakIndex, worst, worstPeak, worstTrough⟩).map (sessionAt daily)).or
        (if 0 < worst ∧ (daily.map DailyRow.netNav).getD worstPeak 0 ≤ row.netNav then
          some row.session else none) := by
  rw [List.map_append, List.map_singleton,
    recoveryIndex_append peakIndex peakIndex' (by simpa using htrough) (by simpa using hpeak)]
  cases hfound : recoveryIndex (daily.map DailyRow.netNav)
      ⟨peakIndex, worst, worstPeak, worstTrough⟩ with
  | none =>
    rw [Option.none_or, Option.map_none, Option.none_or]
    split
    · rw [Option.map_some, List.length_map, sessionAt_last]
    · rfl
  | some index =>
    have hindex : index < daily.length := by
      have hmem := List.mem_of_find?_eq_some hfound
      rw [List.mem_range'_1, List.length_map] at hmem
      omega
    rw [Option.some_or, Option.map_some, Option.map_some, Option.some_or,
      sessionAt_append row hindex]

/-- The session of the running peak after one more row. -/
def ObservedState.nextPeakSession (state : ObservedState F) (row : DailyRow F) : Session :=
  if state.peakNetNav < row.netNav then row.session else state.peakSession

/-- The state after a row whose drawdown from the running peak is known. -/
def ObservedState.nextDrawdown (state : ObservedState F) (row : DailyRow F) (drawdown : ℚ) :
    ObservedState F :=
  if state.worstDrawdown < drawdown then
    { state with
      peakNetNav := max state.peakNetNav row.netNav, peakSession := state.nextPeakSession row
      worstDrawdown := drawdown, worstPeakNav := max state.peakNetNav row.netNav
      worstPeakSession := state.nextPeakSession row, worstTroughSession := row.session
      worstRecoverySession := none }
  else
    { state with
      peakNetNav := max state.peakNetNav row.netNav, peakSession := state.nextPeakSession row
      worstRecoverySession := state.worstRecoverySession.or
        (if 0 < state.worstDrawdown ∧ state.worstPeakNav ≤ row.netNav then some row.session
          else none) }

lemma advanceDrawdown_eq (state : ObservedState F) (row : DailyRow F) :
    advanceDrawdown state row =
      quotient row.netNav (max state.peakNetNav row.netNav) >>= fun ratio =>
        .ok (state.nextDrawdown row (1 - ratio)) := by
  have hpeak : (if state.peakNetNav < row.netNav then (row.netNav, row.session)
      else (state.peakNetNav, state.peakSession)) =
        (max state.peakNetNav row.netNav, state.nextPeakSession row) := by
    unfold ObservedState.nextPeakSession
    split
    · rw [max_eq_right (le_of_lt ‹_›)]
    · rw [max_eq_left (not_lt.mp ‹_›)]
  have hrecovery : (if 0 < state.worstDrawdown ∧ state.worstRecoverySession = none ∧
        state.worstPeakNav ≤ row.netNav then some row.session else state.worstRecoverySession) =
      state.worstRecoverySession.or
        (if 0 < state.worstDrawdown ∧ state.worstPeakNav ≤ row.netNav then some row.session
          else none) := by
    cases state.worstRecoverySession <;> simp
  unfold advanceDrawdown ObservedState.nextDrawdown
  simp only [hpeak, hrecovery]
  congr 1
  funext ratio
  split <;> rfl

lemma advanceDrawdown_matches {daily : List (DailyRow F)} {scan : DrawdownScan}
    {state : ObservedState F} {row : DailyRow F} (h : DrawdownMatches daily scan state)
    (hpos : 0 < daily.length) (hne : max state.peakNetNav row.netNav ≠ 0) :
    ∃ scan' state', advanceDrawdown state row = .ok state' ∧
      DrawdownMatches (daily ++ [row]) scan' state' := by
  obtain ⟨hpeak, hworstPeak, hworstTrough, _⟩ := drawdownScan_bound h.scan_eq
  rw [List.length_map] at hpeak hworstPeak hworstTrough
  have hpeakLt : scan.peakIndex < (daily.map DailyRow.netNav).length := by
    rw [List.length_map]
    omega
  have hmap : (daily ++ [row]).map DailyRow.netNav = daily.map DailyRow.netNav ++ [row.netNav] := by
    rw [List.map_append, List.map_singleton]
  have hlength : daily.length = (daily.map DailyRow.netNav).length := (List.length_map _).symm
  have hread : ∀ index, index < daily.length →
      ((daily ++ [row]).map DailyRow.netNav).getD index 0 =
        (daily.map DailyRow.netNav).getD index 0 := fun index hindex => by
    rw [hmap, getD_append_of_lt [row.netNav] 0 (by rwa [List.length_map])]
  generalize hpeakIndex : scan.nextPeak ((daily ++ [row]).map DailyRow.netNav) daily.length =
    peakIndex
  generalize hdrawdown : 1 - row.netNav / max state.peakNetNav row.netNav = drawdown
  have hscan : drawdownScan ((daily ++ [row]).map DailyRow.netNav) =
      .ok (scan.next peakIndex daily.length drawdown) := by
    rw [← hpeakIndex, ← hdrawdown, hmap, drawdownScan_append, h.scan_eq,
      hlength, h.peakNav]
    exact drawdownStep_append hpeakLt (h.peakNav ▸ hne)
  have hstate : advanceDrawdown state row = .ok (state.nextDrawdown row drawdown) := by
    rw [advanceDrawdown_eq, quotient_of_ne hne, ← hdrawdown]
    rfl
  have hpeakNav : max state.peakNetNav row.netNav =
      ((daily ++ [row]).map DailyRow.netNav).getD peakIndex 0 := by
    rw [← hpeakIndex, hmap, hlength,
      getD_nextPeak hpeakLt, h.peakNav]
  have hpeakSession : state.nextPeakSession row = sessionAt (daily ++ [row]) peakIndex := by
    rw [← hpeakIndex]
    unfold ObservedState.nextPeakSession DrawdownScan.nextPeak
    rw [hread _ (by omega), hmap, hlength,
      getD_append_last, h.peakNav, h.peakSession]
    split
    · rw [List.length_map, sessionAt_last]
    · rw [sessionAt_append row (by omega)]
  refine ⟨_, _, hstate, hscan, ?_, ?_, ?_, ?_, ?_, ?_, ?_⟩
  all_goals unfold ObservedState.nextDrawdown DrawdownScan.next
  all_goals rw [h.worst]
  all_goals split
  · exact hpeakNav
  · exact hpeakNav
  · exact hpeakSession
  · exact hpeakSession
  · rfl
  · rfl
  · exact hpeakNav
  · exact h.worstPeakNav.trans (hread _ (by omega)).symm
  · exact hpeakSession
  · exact h.worstPeakSession.trans (sessionAt_append row (by omega)).symm
  · exact (sessionAt_last daily row).symm
  · exact h.worstTroughSession.trans (sessionAt_append row (by omega)).symm
  · rw [hmap, hlength, recoveryIndex_last, Option.map_none]
  · rw [recovery_append scan.peakIndex peakIndex (by omega) (by omega), h.worstPeakNav, h.recovery]

/-! ### Daily columns -/

lemma netReturns_singleton (nav : ℚ) : netReturns B [nav] = [] := by
  simp [netReturns]

lemma netReturns_append {netNav : List ℚ} {prior : ℚ} (nav : ℚ)
    (hlast : netNav.getLast? = some prior) :
    netReturns B (netNav ++ [nav]) = netReturns B netNav ++ [B.dailyReturn prior nav] := by
  have hpos : 0 < netNav.length := List.length_pos_of_mem (List.mem_of_getLast? hlast)
  have hread : netNav.getD (netNav.length - 1) 0 = prior := by
    rw [List.getD_eq_getElem?_getD, ← List.getLast?_eq_getElem?, hlast, Option.getD_some]
  unfold netReturns
  rw [List.length_append, List.length_singleton,
    show netNav.length + 1 - 1 = netNav.length - 1 + 1 by omega,
    map_range'_append (f := fun index =>
      B.dailyReturn (netNav.getD (index - 1) 0) (netNav.getD index 0))]
  · congr 2
    rw [show 1 + (netNav.length - 1) = netNav.length by omega, getD_append_last,
      getD_append_of_lt [nav] 0 (by omega), hread]
  · intro index hlow hhigh
    rw [getD_append_of_lt [nav] 0 (by omega), getD_append_of_lt [nav] 0 (by omega)]

lemma firstMaximum_append {column : DailyRow F → F} {daily : List (DailyRow F)}
    {maximum : DatedMaximum F} (row : DailyRow F)
    (h : firstMaximum B column daily = some maximum) :
    firstMaximum B column (daily ++ [row]) =
      some (advanceMaximum B maximum (column row) row.session) := by
  unfold firstMaximum at h ⊢
  obtain ⟨best, hbest, rfl⟩ := Option.map_eq_some_iff.mp h
  rw [List.argmax_concat, hbest]
  unfold advanceMaximum
  dsimp only
  split <;> rfl

/-- The metric state agrees with the rows that it has observed. -/
structure Observes (B : Binary64 F) (daily : List (DailyRow F)) (state : ObservedState F) :
    Prop where
  drawdown : ∃ scan, DrawdownMatches daily scan state
  count : state.sessionCount = daily.length
  entry : state.entrySessionOrdinal = (daily.findIdx? DailyRow.rebalance).map (· + 1)
  entered : state.entrySession = none ↔ state.entrySessionOrdinal = none
  first : ∃ first, daily.head? = some first ∧
    state.holdingsMinimum = (daily.map DailyRow.holdingsCount).foldl min first.holdingsCount ∧
    state.holdingsMaximum = (daily.map DailyRow.holdingsCount).foldl max first.holdingsCount
  last : ∃ last, daily.getLast? = some last ∧ state.lastGrossNav = last.grossNav ∧
    state.lastNetNav = last.netNav ∧ state.holdingsEnding = last.holdingsCount ∧
    state.weightEnding = last.maximumSingleNameWeight ∧ state.cashEnding = last.cashRatio
  returnCount : state.returnCount = (netReturns B (daily.map DailyRow.netNav)).length
  returnSum : state.returnSum = ((netReturns B (daily.map DailyRow.netNav)).map B.toRat).sum
  returnSquareSum : state.returnSquareSum =
    (((netReturns B (daily.map DailyRow.netNav)).map B.toRat).map (· ^ 2)).sum
  holdingsSum : state.holdingsSum = (daily.map DailyRow.holdingsCount).sum
  weightMaximum : firstMaximum B DailyRow.maximumSingleNameWeight daily = some state.weightMaximum
  cashMaximum : firstMaximum B DailyRow.cashRatio daily = some state.cashMaximum
  cashSum : state.cashSum = (daily.map fun row => B.toRat row.cashRatio).sum

/-- The first row needs a net NAV that the drawdown of the whole list can divide by. -/
lemma observes_first {row : DailyRow F} (hne : row.netNav ≠ 0) :
    Observes B [row] (firstObservation B row) where
  drawdown := ⟨⟨0, 0, 0, 0⟩, drawdownScan_singleton hne, rfl, rfl, rfl, rfl, rfl, rfl, rfl⟩
  count := rfl
  entry := by cases hrow : row.rebalance <;> simp [firstObservation, List.findIdx?_cons, hrow]
  entered := by cases hrow : row.rebalance <;> simp [firstObservation, hrow]
  first := ⟨row, rfl, by simp [firstObservation], by simp [firstObservation]⟩
  last := ⟨row, rfl, rfl, rfl, rfl, rfl, rfl⟩
  returnCount := by rw [List.map_singleton, netReturns_singleton]; rfl
  returnSum := by rw [List.map_singleton, netReturns_singleton]; rfl
  returnSquareSum := by rw [List.map_singleton, netReturns_singleton]; rfl
  holdingsSum := by simp [firstObservation]
  weightMaximum := rfl
  cashMaximum := rfl
  cashSum := by simp [firstObservation]

/-- Every further row keeps the agreement. -/
lemma Observes.step {daily : List (DailyRow F)} {state : ObservedState F}
    (h : Observes B daily state) (row : DailyRow F) (hne : max state.peakNetNav row.netNav ≠ 0) :
    ∃ state', advanceObservation B state row = .ok state' ∧ Observes B (daily ++ [row]) state' := by
  obtain ⟨last, hlast, hgross, hnet, _⟩ := h.last
  obtain ⟨first, hfirst, hminimum, hmaximum⟩ := h.first
  obtain ⟨scan, hscan⟩ := h.drawdown
  have hpos : 0 < daily.length := List.length_pos_of_mem (List.mem_of_getLast? hlast)
  obtain ⟨scan', scanned, hadvance, hmatches⟩ := advanceDrawdown_matches hscan hpos hne
  have hmap : (daily ++ [row]).map DailyRow.netNav = daily.map DailyRow.netNav ++ [row.netNav] := by
    rw [List.map_append, List.map_singleton]
  have hreturns : netReturns B ((daily ++ [row]).map DailyRow.netNav) =
      netReturns B (daily.map DailyRow.netNav) ++ [B.dailyReturn state.lastNetNav row.netNav] := by
    rw [hmap, hnet]
    exact netReturns_append row.netNav (by rw [List.getLast?_map, hlast, Option.map_some])
  refine ⟨_, by rw [advanceObservation, hadvance]; rfl, ?_⟩
  constructor
  · exact ⟨scan', hmatches.scan_eq, hmatches.peakNav, hmatches.peakSession, hmatches.worst,
      hmatches.worstPeakNav, hmatches.worstPeakSession, hmatches.worstTroughSession,
      hmatches.recovery⟩
  · simp [h.count]
  · have hfind : (daily ++ [row]).findIdx? DailyRow.rebalance =
        (daily.findIdx? DailyRow.rebalance).or (if row.rebalance then some daily.length else none) := by
      rw [List.findIdx?_append, List.findIdx?_singleton]
      split <;> simp
    have hentered := h.entered
    have hentry := h.entry
    rw [hfind]
    cases hfound : daily.findIdx? DailyRow.rebalance with
    | none =>
      rw [hfound, Option.map_none] at hentry
      have hnone := hentered.mpr hentry
      cases row.rebalance <;> simp [hnone, hentry, h.count]
    | some index =>
      rw [hfound, Option.map_some] at hentry
      have hsome : state.entrySession ≠ none := fun hnone => by
        rw [hentered.mp hnone] at hentry
        cases hentry
      simp [hsome, hentry]
  · have hentered := h.entered
    dsimp only
    split
    · simp
    · exact hentered
  · refine ⟨first, by rw [List.head?_append, hfirst, Option.some_or], ?_, ?_⟩
    · rw [List.map_append, List.foldl_append, ← hminimum]
      rfl
    · rw [List.map_append, List.foldl_append, ← hmaximum]
      rfl
  · exact ⟨row, List.getLast?_concat, rfl, rfl, rfl, rfl, rfl⟩
  · rw [hreturns, List.length_append, List.length_singleton, ← h.returnCount]
  · rw [hreturns, List.map_append, List.sum_append, ← h.returnSum]
    simp
  · rw [hreturns, List.map_append, List.map_append, List.sum_append, ← h.returnSquareSum]
    simp
  · rw [List.map_append, List.sum_append, ← h.holdingsSum]
    simp
  · exact firstMaximum_append row h.weightMaximum
  · exact firstMaximum_append row h.cashMaximum
  · rw [List.map_append, List.sum_append, ← h.cashSum]
    simp

/-- Rows without a zero peak are observed without an error. -/
theorem observes_of_peaksNonzero {daily : List (DailyRow F)} (hdaily : daily ≠ [])
    (hpeaks : PeaksNonzero (daily.map DailyRow.netNav)) :
    ∃ state, daily.foldlM (observe B) none = .ok (some state) ∧ Observes B daily state := by
  induction daily using List.reverseRecOn with
  | nil => exact absurd rfl hdaily
  | append_singleton daily row ih =>
    rcases List.eq_nil_or_concat' daily with rfl | ⟨_, _, hconcat⟩
    · rw [List.nil_append, List.map_singleton, peaksNonzero_singleton] at hpeaks
      refine ⟨firstObservation B row, ?_, observes_first hpeaks⟩
      rfl
    · have hpos : 0 < (daily.map DailyRow.netNav).length := by
        rw [hconcat]
        simp
      rw [List.map_append, List.map_singleton, peaksNonzero_append row.netNav hpos] at hpeaks
      obtain ⟨state, hfold, hobserves⟩ := ih (by rw [hconcat]; simp) hpeaks.1
      obtain ⟨scan, hscan⟩ := hobserves.drawdown
      have hpeakNav := (drawdownScan_atPeak hscan.scan_eq hpos).1
      obtain ⟨state', hadvance, hobserves'⟩ := hobserves.step row (by
        rw [hscan.peakNav, hpeakNav]
        exact hpeaks.2)
      refine ⟨state', ?_, hobserves'⟩
      rw [List.foldlM_append, hfold]
      change [row].foldlM (observe B) (some state) = _
      simp [List.foldlM_cons, observe, hadvance, bind, Except.bind, pure, Except.pure]

/-! ### Metrics from the state -/

/-- The compact metrics that the two functions compute from their investment intervals. -/
def compactMetrics (B : Binary64 F) (state : StrategyMetricState F) (observed : ObservedState F)
    (intervals : Nat) : CompactMetrics F :=
  let grossWealth := observed.lastGrossNav / state.initialCash
  let netWealth := observed.lastNetNav / state.initialCash
  let volatility :=
    if 2 ≤ observed.returnCount then
      some (B.mul
        (B.sampleStdevFromExactMoments observed.returnCount observed.returnSum
          observed.returnSquareSum)
        (B.sqrt (B.ofRat 252)))
    else none
  let returnMean :=
    if observed.returnCount ≠ 0 then
      some (B.div (B.ofRat observed.returnSum) (B.ofRat observed.returnCount))
    else none
  { grossCumulativeReturn := B.ofRat (grossWealth - 1)
    netCumulativeReturn := B.ofRat (netWealth - 1)
    grossCagr := B.cagr grossWealth intervals
    netCagr := B.cagr netWealth intervals
    maximumDrawdown :=
      { value := B.ofRat observed.worstDrawdown
        peakSession := observed.worstPeakSession
        troughSession := observed.worstTroughSession
        recoverySession := observed.worstRecoverySession
        unrecovered := observed.worstRecoverySession.isNone
          && decide (0 < B.toRat (B.ofRat observed.worstDrawdown)) }
    annualizedVolatility := volatility
    sharpe := B.sharpe volatility returnMean
    riskFreeRate := 0
    calmar := B.calmar (B.cagr netWealth intervals) (B.ofRat observed.worstDrawdown)
    averageRebalance :=
      if state.turnoverCount ≠ 0 then
        some (B.div (B.ofRat state.turnoverSum) (B.ofRat state.turnoverCount))
      else none
    annualizedTurnover :=
      if observed.sessionCount - 1 ≠ 0 then
        some (B.div (B.mul (B.ofRat state.turnoverSum) (B.ofRat 252))
          (B.ofRat (observed.sessionCount - 1 : Nat)))
      else none
    cumulativeAmount := B.ofRat state.cumulativeCost
    costRatio := B.ofRat (state.cumulativeCost / state.initialCash)
    returnDrag := B.sub (B.ofRat (grossWealth - 1)) (B.ofRat (netWealth - 1))
    holdingsCount :=
      { mean := B.trueDiv observed.holdingsSum observed.sessionCount
        minimum := observed.holdingsMinimum
        maximum := observed.holdingsMaximum
        ending := observed.holdingsEnding }
    weightMaximum := observed.weightMaximum
    weightEnding := observed.weightEnding
    cashMean := B.div (B.ofRat observed.cashSum) (B.ofRat observed.sessionCount)
    cashMaximum := observed.cashMaximum
    cashEnding := observed.cashEnding
    marketRejections := state.rejections }

/-- The investment intervals that the streaming state yields. -/
def streamedIntervals (daily : List (DailyRow F)) : Nat :=
  match daily.findIdx? DailyRow.rebalance with
  | none => daily.length - 1
  | some index => daily.length - (index + 1)

lemma Observes.investmentIntervals {daily : List (DailyRow F)} {observed : ObservedState F}
    (h : Observes B daily observed) : observed.investmentIntervals = streamedIntervals daily := by
  rw [ObservedState.investmentIntervals, h.entry, h.count, streamedIntervals]
  cases daily.findIdx? DailyRow.rebalance <;> rfl

lemma strategyMetricsFromState_eq {daily : List (DailyRow F)} {state : StrategyMetricState F}
    {observed : ObservedState F} (hcash : 0 < state.initialCash)
    (hobserved : state.observed = some observed) (h : Observes B daily observed) :
    strategyMetricsFromState B state =
      .ok ⟨compactMetrics B state observed (streamedIntervals daily), ⟨[], [], [], [], []⟩⟩ := by
  have hne : state.initialCash ≠ 0 := ne_of_gt hcash
  rw [← h.investmentIntervals]
  unfold strategyMetricsFromState
  simp only [require, hcash, if_true, hobserved, found, quotient_of_ne hne]
  rfl

lemma exists_mapM_ok {α β : Type} {f : α → Except MetricsError β} {xs : List α}
    (h : ∀ x ∈ xs, ∃ y, f x = .ok y) : ∃ ys, xs.mapM f = .ok ys := by
  induction xs with
  | nil => exact ⟨[], rfl⟩
  | cons x xs ih =>
    obtain ⟨y, hy⟩ := h x List.mem_cons_self
    obtain ⟨ys, hys⟩ := ih fun z hz => h z (List.mem_cons_of_mem x hz)
    refine ⟨y :: ys, ?_⟩
    rw [List.mapM_cons, hy, hys]
    rfl

/-- The drawdown metrics of the whole list, when no peak is zero. -/
lemma maximumDrawdown_eq {daily : List (DailyRow F)} {scan : DrawdownScan}
    (hscan : drawdownScan (daily.map DailyRow.netNav) = .ok scan)
    (hpeaks : PeaksNonzero (daily.map DailyRow.netNav)) :
    ∃ series, maximumDrawdown B daily (daily.map DailyRow.netNav) = .ok (
      { value := B.ofRat scan.worstValue
        peakSession := sessionAt daily scan.worstPeak
        troughSession := sessionAt daily scan.worstTrough
        recoverySession :=
          (recoveryIndex (daily.map DailyRow.netNav) scan).map (sessionAt daily)
        unrecovered := (recoveryIndex (daily.map DailyRow.netNav) scan).isNone
          && decide (0 < scan.worstValue) }, series) := by
  have hseries : ∃ series, (List.range (daily.map DailyRow.netNav).length).mapM (fun index => do
      let ratio ← quotient ((daily.map DailyRow.netNav).getD index 0)
        (runningMaximum (daily.map DailyRow.netNav) index)
      return (sessionAt daily index, B.ofRat (1 - ratio))) = .ok series := by
    apply exists_mapM_ok
    intro index hindex
    rw [quotient_of_ne (hpeaks index (List.mem_range.mp hindex))]
    exact ⟨_, rfl⟩
  obtain ⟨series, hseries⟩ := hseries
  refine ⟨series, ?_⟩
  unfold maximumDrawdown
  unfold sessionAt at hseries ⊢
  simp only [hscan, ok_bind]
  rw [hseries]
  rfl

/-- The metrics of the whole list are those of its state, with the intervals that follow the
entry row. -/
lemma strategyMetrics_eq {daily : List (DailyRow F)} {observed : ObservedState F}
    {initialCash cumulativeCost : ℚ} {turnoverEvents : List (TurnoverEvent F)}
    {rejections : List RejectionReason} (hcash : 0 < initialCash)
    (hsign : ∀ x, 0 < B.toRat (B.ofRat x) ↔ 0 < x) (h : Observes B daily observed)
    (hpeaks : PeaksNonzero (daily.map DailyRow.netNav)) :
    ∃ histories, strategyMetrics B initialCash daily turnoverEvents cumulativeCost rejections =
      .ok ⟨compactMetrics B
        ⟨initialCash, some observed, (turnoverEvents.map fun event => B.toRat event.value).sum,
          turnoverEvents.length, cumulativeCost, countRejections rejections⟩
        observed (daily.length - entryIndex daily - 1), histories⟩ := by
  have hne : initialCash ≠ 0 := ne_of_gt hcash
  obtain ⟨first, hfirst, hminimum, hmaximum⟩ := h.first
  obtain ⟨last, hlast, hgross, hnet, hholdings, hweight, hcashEnding⟩ := h.last
  obtain ⟨scan, hscan⟩ := h.drawdown
  obtain ⟨series, hdrawdown⟩ := maximumDrawdown_eq (B := B) hscan.scan_eq hpeaks
  unfold strategyMetrics
  simp only [hfirst, hlast, found, quotient_of_ne hne, hdrawdown, h.weightMaximum, h.cashMaximum,
    ok_bind]
  refine ⟨_, congrArg Except.ok (congrArg₂ StrategyMetrics.mk ?_ rfl)⟩
  unfold compactMetrics Binary64.stdev Binary64.fsum
  dsimp only
  rw [hgross, hnet, hholdings, hweight, hcashEnding, hscan.worst, hscan.worstPeakSession,
    hscan.worstTroughSession, hscan.recovery, h.returnCount, h.returnSum, h.returnSquareSum,
    h.count, h.holdingsSum, hminimum, hmaximum, h.cashSum]
  have hsum : ((daily.map DailyRow.holdingsCount).map (Nat.cast : ℕ → ℚ)).sum =
      (((daily.map DailyRow.holdingsCount).sum : ℤ) : ℚ) := by
    rw [Int.cast_natCast]
    exact (Nat.cast_list_sum _).symm
  have hmean : ∀ n : ℕ, (((n : ℕ) : ℤ) : ℚ) = (n : ℚ) := Int.cast_natCast
  simp only [Option.isNone_map, hsign, Binary64.trueDiv, hsum, hmean, List.length_map]

lemma foldlM_observe_isSome {daily : List (DailyRow F)} {prior result : Option (ObservedState F)}
    (h : daily.foldlM (observe B) prior = .ok result) (hdaily : daily ≠ []) :
    result.isSome = true := by
  induction daily using List.reverseRecOn with
  | nil => exact absurd rfl hdaily
  | append_singleton daily row _ =>
    rw [List.foldlM_append, bind_ok_iff] at h
    obtain ⟨middle, _, hlast⟩ := h
    rw [List.foldlM_cons, bind_ok_iff] at hlast
    obtain ⟨next, hnext, hresult⟩ := hlast
    rw [List.foldlM_nil, pure_ok_iff] at hresult
    subst hresult
    cases middle with
    | none =>
      rw [observe, pure_ok_iff] at hnext
      rw [← hnext]
      rfl
    | some state =>
      simp only [observe, bind_ok_iff, pure_ok_iff] at hnext
      obtain ⟨_, _, rfl⟩ := hnext
      rfl

/-! ### Feeding batches -/

/-- Feed batches one after another, the first one without a prior state. -/
def feedBatches (B : Binary64 F) (initialCash : ℚ) (batches : List (MetricBatch F)) :
    Except MetricsError (Option (StrategyMetricState F)) :=
  batches.foldlM (fun prior batch => do
    let state ← advanceStrategyMetricState B prior initialCash batch
    return some state) none

def streamedMetrics (B : Binary64 F) (initialCash : ℚ) (batches : List (MetricBatch F)) :
    Except MetricsError (StrategyMetrics F) := do
  let state ← feedBatches B initialCash batches
  let final ← found state .noObservations
  strategyMetricsFromState B final

/-- The metrics of the concatenated batches; the cost is cumulative. -/
def wholeMetrics (B : Binary64 F) (initialCash : ℚ) (batches : List (MetricBatch F)) :
    Except MetricsError (StrategyMetrics F) :=
  strategyMetrics B initialCash (batches.flatMap MetricBatch.daily)
    (batches.flatMap MetricBatch.turnoverEvents)
    ((batches.getLast?.map MetricBatch.cumulativeCost).getD 0)
    (batches.flatMap MetricBatch.rejections)

/-- The state of all batches is the state of all rows, with the events added up. -/
def batchesState (B : Binary64 F) (initialCash : ℚ) (observed : ObservedState F)
    (batches : List (MetricBatch F)) : StrategyMetricState F :=
  ⟨initialCash, some observed,
    ((batches.flatMap MetricBatch.turnoverEvents).map fun event => B.toRat event.value).sum,
    (batches.flatMap MetricBatch.turnoverEvents).length,
    (batches.getLast?.map MetricBatch.cumulativeCost).getD 0,
    countRejections (batches.flatMap MetricBatch.rejections)⟩

lemma feedBatches_eq {initialCash : ℚ} {batches : List (MetricBatch F)}
    {observed : ObservedState F} (hbatches : batches ≠ []) (hdaily : ∀ b ∈ batches, b.daily ≠ [])
    (h : (batches.flatMap MetricBatch.daily).foldlM (observe B) none = .ok (some observed)) :
    feedBatches B initialCash batches =
      .ok (some (batchesState B initialCash observed batches)) := by
  induction batches using List.reverseRecOn generalizing observed with
  | nil => exact absurd rfl hbatches
  | append_singleton batches batch ih =>
    have hlast : batch.daily ≠ [] := hdaily batch (by simp)
    rw [List.flatMap_append, List.flatMap_singleton, List.foldlM_append, bind_ok_iff] at h
    obtain ⟨middle, hmiddle, hrest⟩ := h
    have hone : ∀ prior : Option (StrategyMetricState F),
        (prior.getD (emptyMetricState initialCash)).initialCash = initialCash →
        (prior.getD (emptyMetricState initialCash)).observed = middle →
        advanceStrategyMetricState B prior initialCash batch = .ok
          { initialCash := initialCash
            observed := some observed
            turnoverSum := (prior.getD (emptyMetricState initialCash)).turnoverSum +
              (batch.turnoverEvents.map fun event => B.toRat event.value).sum
            turnoverCount := (prior.getD (emptyMetricState initialCash)).turnoverCount +
              batch.turnoverEvents.length
            cumulativeCost := batch.cumulativeCost
            rejections :=
              (prior.getD (emptyMetricState initialCash)).rejections.add batch.rejections } := by
      intro prior hcash hobserved
      unfold advanceStrategyMetricState
      simp only [hobserved, hrest, require, hcash, if_true, ok_bind, Option.isSome_some]
      rfl
    unfold feedBatches at ih ⊢
    rw [List.foldlM_append]
    by_cases hempty : batches = []
    · subst hempty
      simp only [List.flatMap_nil, List.foldlM_nil, pure_ok_iff] at hmiddle
      rw [List.foldlM_nil, pure_bind, List.foldlM_cons, hone none rfl hmiddle]
      simp [batchesState, emptyMetricState, RejectionCounts.add, countRejections]
    · have hsome := foldlM_observe_isSome hmiddle fun hnil => by
        obtain ⟨first, hfirst⟩ := List.exists_mem_of_ne_nil _ hempty
        exact hdaily first (List.mem_append_left _ hfirst) (List.flatMap_eq_nil_iff.mp hnil first hfirst)
      obtain ⟨prior, rfl⟩ := Option.isSome_iff_exists.mp hsome
      rw [ih hempty (fun b hb => hdaily b (List.mem_append_left _ hb)) hmiddle, ok_bind,
        List.foldlM_cons, hone (some (batchesState B initialCash prior batches)) rfl rfl]
      simp [batchesState, RejectionCounts.add, countRejections, List.sum_append]

/-! ### The agreement -/

/-- Both computations succeed with the same metrics, histories aside. -/
def MetricsAgree (B : Binary64 F) (initialCash : ℚ) (batches : List (MetricBatch F)) : Prop :=
  ∃ streamed whole, streamedMetrics B initialCash batches = .ok streamed ∧
    wholeMetrics B initialCash batches = .ok whole ∧ streamed.compact = whole.compact

/-- The condition of the agreement: every peak can be divided by, and some row is a rebalance
row unless there is no interval or no positive wealth to annualize. -/
def MetricsAgreeWhen (daily : List (DailyRow F)) : Prop :=
  PeaksNonzero (daily.map DailyRow.netNav) ∧
    ((∃ row ∈ daily, row.rebalance = true) ∨ daily.length ≤ 1 ∨
      ∀ last, daily.getLast? = some last → last.grossNav ≤ 0 ∧ last.netNav ≤ 0)

lemma streamedIntervals_eq {daily : List (DailyRow F)}
    (h : ∃ row ∈ daily, row.rebalance = true) :
    streamedIntervals daily = daily.length - entryIndex daily - 1 := by
  obtain ⟨row, hrow, hrebalance⟩ := h
  cases hfound : daily.findIdx? DailyRow.rebalance with
  | none =>
    have hnot := List.findIdx?_eq_none_iff.mp hfound row hrow
    rw [hrebalance] at hnot
    cases hnot
  | some index =>
    rw [streamedIntervals, entryIndex, hfound]
    dsimp only [Option.getD_some]
    omega

lemma streamedIntervals_none {daily : List (DailyRow F)} (hdaily : daily ≠ [])
    (h : ¬∃ row ∈ daily, row.rebalance = true) :
    streamedIntervals daily = daily.length - 1 ∧ daily.length - entryIndex daily - 1 = 0 := by
  have hnone : daily.findIdx? DailyRow.rebalance = none := by
    rw [List.findIdx?_eq_none_iff]
    intro row hrow
    exact Bool.eq_false_iff.mpr fun hrebalance => h ⟨row, hrow, hrebalance⟩
  have hpos := List.length_pos_of_ne_nil hdaily
  rw [streamedIntervals, entryIndex, hnone]
  dsimp only [Option.getD_none]
  omega

lemma cagr_zero (wealth : ℚ) : B.cagr wealth 0 = none := by
  simp [Binary64.cagr]

lemma cagr_eq_none {wealth : ℚ} {intervals : Nat} :
    B.cagr wealth intervals = none ↔ intervals = 0 ∨ wealth ≤ 0 := by
  unfold Binary64.cagr
  split <;> simp_all

lemma peaksNonzero_of_strategyMetrics {initialCash cumulativeCost : ℚ}
    {daily : List (DailyRow F)} {turnoverEvents : List (TurnoverEvent F)}
    {rejections : List RejectionReason} {metrics : StrategyMetrics F}
    (h : strategyMetrics B initialCash daily turnoverEvents cumulativeCost rejections = .ok metrics) :
    PeaksNonzero (daily.map DailyRow.netNav) := by
  simp only [strategyMetrics, maximumDrawdown, bind_ok_iff, found_ok_iff] at h
  obtain ⟨first, hfirst, _, _, _, _, _, _, _, ⟨scan, hscan, _⟩, _⟩ := h
  have hpos : 0 < (daily.map DailyRow.netNav).length := by
    rw [List.length_map]
    exact List.length_pos_of_mem (List.mem_of_head? hfirst)
  exact (drawdownScan_atPeak hscan hpos).2

/-- The investment intervals matter only through the annualized returns. -/
lemma compactMetrics_eq_iff {state : StrategyMetricState F} {observed : ObservedState F}
    {intervals intervals' : Nat} :
    compactMetrics B state observed intervals = compactMetrics B state observed intervals' ↔
      B.cagr (observed.lastGrossNav / state.initialCash) intervals =
          B.cagr (observed.lastGrossNav / state.initialCash) intervals' ∧
        B.cagr (observed.lastNetNav / state.initialCash) intervals =
          B.cagr (observed.lastNetNav / state.initialCash) intervals' := by
  constructor
  · intro h
    exact ⟨congrArg CompactMetrics.grossCagr h, congrArg CompactMetrics.netCagr h⟩
  · rintro ⟨hgross, hnet⟩
    unfold compactMetrics
    dsimp only
    rw [hgross, hnet]

lemma wealth_nonpos_iff {nav initialCash : ℚ} (hcash : 0 < initialCash) :
    nav / initialCash ≤ 0 ↔ nav ≤ 0 := by
  rw [div_le_iff₀ hcash, zero_mul]

lemma streamedMetrics_eq {initialCash : ℚ} {batches : List (MetricBatch F)}
    {observed : ObservedState F} (hcash : 0 < initialCash) (hbatches : batches ≠ [])
    (hdaily : ∀ b ∈ batches, b.daily ≠ [])
    (hfold : (batches.flatMap MetricBatch.daily).foldlM (observe B) none = .ok (some observed))
    (h : Observes B (batches.flatMap MetricBatch.daily) observed) :
    streamedMetrics B initialCash batches =
      .ok ⟨compactMetrics B (batchesState B initialCash observed batches) observed
        (streamedIntervals (batches.flatMap MetricBatch.daily)), ⟨[], [], [], [], []⟩⟩ := by
  rw [streamedMetrics, feedBatches_eq hbatches hdaily hfold, ok_bind, found, ok_bind]
  exact strategyMetricsFromState_eq hcash rfl h

/-- Streaming agrees with one-shot metrics exactly under the condition. -/
theorem streamed_metrics_agree_iff {initialCash : ℚ} {batches : List (MetricBatch F)}
    (hcash : 0 < initialCash) (hsign : ∀ x, 0 < B.toRat (B.ofRat x) ↔ 0 < x)
    (hbatches : batches ≠ []) (hdaily : ∀ b ∈ batches, b.daily ≠ []) :
    MetricsAgree B initialCash batches ↔ MetricsAgreeWhen (batches.flatMap MetricBatch.daily) := by
  by_cases hpeaks : PeaksNonzero ((batches.flatMap MetricBatch.daily).map DailyRow.netNav)
  swap
  · constructor
    · rintro ⟨_, whole, _, hwhole, _⟩
      exact absurd (peaksNonzero_of_strategyMetrics hwhole) hpeaks
    · exact fun h => absurd h.1 hpeaks
  have hne : batches.flatMap MetricBatch.daily ≠ [] := by
    obtain ⟨first, hfirst⟩ := List.exists_mem_of_ne_nil _ hbatches
    exact fun hnil => hdaily first hfirst (List.flatMap_eq_nil_iff.mp hnil first hfirst)
  obtain ⟨observed, hfold, hobserves⟩ := observes_of_peaksNonzero (B := B) hne hpeaks
  obtain ⟨last, hlast, hgross, hnet, _⟩ := hobserves.last
  have hstreamed := streamedMetrics_eq hcash hbatches hdaily hfold hobserves
  obtain ⟨histories, hwhole⟩ : ∃ histories, wholeMetrics B initialCash batches = .ok ⟨_, histories⟩ :=
    strategyMetrics_eq hcash hsign hobserves hpeaks
  have hagree : MetricsAgree B initialCash batches ↔
      B.cagr (last.grossNav / initialCash) (streamedIntervals (batches.flatMap MetricBatch.daily)) =
          B.cagr (last.grossNav / initialCash) ((batches.flatMap MetricBatch.daily).length -
            entryIndex (batches.flatMap MetricBatch.daily) - 1) ∧
        B.cagr (last.netNav / initialCash) (streamedIntervals (batches.flatMap MetricBatch.daily)) =
          B.cagr (last.netNav / initialCash) ((batches.flatMap MetricBatch.daily).length -
            entryIndex (batches.flatMap MetricBatch.daily) - 1) := by
    rw [MetricsAgree, hstreamed, hwhole, ← hgross, ← hnet]
    constructor
    · rintro ⟨_, _, hs, hw, hcompact⟩
      rw [← Except.ok.inj hs, ← Except.ok.inj hw] at hcompact
      exact compactMetrics_eq_iff.mp hcompact
    · exact fun h => ⟨_, _, rfl, rfl, compactMetrics_eq_iff.mpr h⟩
  rw [hagree, MetricsAgreeWhen]
  by_cases hrebalance : ∃ row ∈ batches.flatMap MetricBatch.daily, row.rebalance = true
  · rw [streamedIntervals_eq hrebalance]
    exact ⟨fun _ => ⟨hpeaks, .inl hrebalance⟩, fun _ => ⟨rfl, rfl⟩⟩
  · obtain ⟨hstreamedIntervals, hwholeIntervals⟩ := streamedIntervals_none hne hrebalance
    rw [hstreamedIntervals, hwholeIntervals, cagr_zero, cagr_zero, cagr_eq_none, cagr_eq_none,
      wealth_nonpos_iff hcash, wealth_nonpos_iff hcash, hlast]
    constructor
    · rintro ⟨hgrossNone, hnetNone⟩
      refine ⟨hpeaks, .inr ?_⟩
      by_cases hlength : (batches.flatMap MetricBatch.daily).length ≤ 1
      · exact .inl hlength
      · refine .inr fun other hother => ?_
        rw [← Option.some.inj hother]
        exact ⟨hgrossNone.resolve_left (by omega), hnetNone.resolve_left (by omega)⟩
    · rintro ⟨_, hentered | hlength | hwealth⟩
      · exact absurd hentered hrebalance
      · exact ⟨.inl (by omega), .inl (by omega)⟩
      · obtain ⟨hgrossNonpos, hnetNonpos⟩ := hwealth last rfl
        exact ⟨.inr hgrossNonpos, .inr hnetNonpos⟩

/-- Binary64 numbers as rationals, exact on the values of the samples. -/
def rationalBinary64 : Binary64 ℚ where
  ofRat x := x
  toRat x := x
  sub x y := x - y
  mul x y := x * y
  div x y := x / y
  abs x := |x|
  pow x y := x ^ y.floor
  sqrt x := Nat.sqrt x.floor.toNat

def sampleRow (session : Session) (nav : ℚ) (rebalance : Bool) : DailyRow ℚ :=
  ⟨session, nav, nav, rebalance, 1, 1 / 2, 1 / 2⟩

/-- Two batches of one row, whose first row rebalances or not. -/
def sampleBatches (rebalance : Bool) : List (MetricBatch ℚ) :=
  [⟨[sampleRow 1 8 rebalance], [], 0, []⟩, ⟨[sampleRow 2 10 false], [], 0, []⟩]

theorem streamed_metrics_agree_sample : MetricsAgree rationalBinary64 8 (sampleBatches true) := by
  refine (streamed_metrics_agree_iff (by norm_num) (fun x => Iff.rfl) (by simp [sampleBatches])
    (by simp [sampleBatches])).mpr ⟨?_, .inl ⟨sampleRow 1 8 true, by simp [sampleBatches], rfl⟩⟩
  intro index hindex
  have hcases : index = 0 ∨ index = 1 := by
    simp [sampleBatches] at hindex
    omega
  rcases hcases with rfl | rfl <;> norm_num [sampleBatches, sampleRow, runningMaximum]

theorem streamed_metrics_agree_noRebalance :
    ¬∀ batches : List (MetricBatch ℚ), batches ≠ [] → (∀ b ∈ batches, b.daily ≠ []) →
      MetricsAgree rationalBinary64 8 batches := by
  intro h
  obtain ⟨streamed, whole, hstreamed, hwhole, hcompact⟩ :=
    h (sampleBatches false) (by simp [sampleBatches]) (by simp [sampleBatches])
  have hsome : ((streamedMetrics rationalBinary64 8 (sampleBatches false)).toOption.bind
      fun m => m.compact.netCagr).isSome = true := by decide +kernel
  have hnone : ((wholeMetrics rationalBinary64 8 (sampleBatches false)).toOption.bind
      fun m => m.compact.netCagr).isSome = false := by decide +kernel
  rw [hstreamed] at hsome
  rw [hwhole] at hnone
  change streamed.compact.netCagr.isSome = true at hsome
  change whole.compact.netCagr.isSome = false at hnone
  rw [hcompact, hnone] at hsome
  cases hsome

end ThesisTrace.Strategy
