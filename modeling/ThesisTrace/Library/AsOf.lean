import Mathlib.Data.List.Induction
import Mathlib.Data.List.MinMax
import Mathlib.Data.List.Sort

/-!
# Sorted histories and what holds at a time

A history is a list sorted by time. `lastOfRuns` keeps the last of the elements that share a key,
`lastAtMost` finds by position the last element up to a time, `scan` notes the state after each
element and `scanGroups` starts anew with each group. `recordMaxima` keeps the elements that
attain the running maximum: the last of them up to a time is the last that attains the maximum.
-/

namespace AsOf

variable {α β κ σ : Type*}

/-! ### The last of each run -/

section Runs
variable [DecidableEq κ] {key : α → κ}

/-- The last of each run of elements with one key. -/
def lastOfRuns (key : α → κ) : List α → List α
  | [] => []
  | [a] => [a]
  | a :: b :: l =>
    if key a = key b then lastOfRuns key (b :: l) else a :: lastOfRuns key (b :: l)

lemma lastOfRuns_sublist (l : List α) : (lastOfRuns key l).Sublist l := by
  induction l with
  | nil => exact .slnil
  | cons a l ih =>
    cases l with
    | nil => exact .refl _
    | cons b l =>
      rw [lastOfRuns]
      split_ifs
      · exact ih.cons _
      · exact ih.cons_cons _

/-- The last element with a property of its key is the last of its run. -/
lemma getLast?_filter_lastOfRuns (q : κ → Bool) (l : List α) :
    ((lastOfRuns key l).filter fun a => q (key a)).getLast? =
      (l.filter fun a => q (key a)).getLast? := by
  induction l with
  | nil => rfl
  | cons a l ih =>
    cases l with
    | nil => rfl
    | cons b l =>
      rw [lastOfRuns]
      by_cases hkey : key a = key b
      · rw [if_pos hkey, ih]
        by_cases hq : q (key a)
        · rw [List.filter_cons_of_pos (p := fun a => q (key a)) (a := a) hq,
            List.filter_cons_of_pos (p := fun a => q (key a)) (a := b) (hkey ▸ hq)]
          rfl
        · rw [List.filter_cons_of_neg (p := fun a => q (key a)) (a := a) hq]
      · rw [if_neg hkey]
        by_cases hq : q (key a)
        · rw [List.filter_cons_of_pos (p := fun a => q (key a)) (a := a) hq,
            List.filter_cons_of_pos (p := fun a => q (key a)) (a := a) hq, List.getLast?_cons,
            List.getLast?_cons, ih]
        · rw [List.filter_cons_of_neg (p := fun a => q (key a)) (a := a) hq,
            List.filter_cons_of_neg (p := fun a => q (key a)) (a := a) hq, ih]

/-- The last elements of the runs of a sorted list have distinct keys. -/
lemma lastOfRuns_strict {ι : Type*} [LinearOrder ι] {key : α → ι} {l : List α}
    (h : l.Pairwise fun a b => key a ≤ key b) :
    (lastOfRuns key l).Pairwise fun a b => key a < key b := by
  induction l with
  | nil => exact .nil
  | cons a l ih =>
    obtain ⟨hhead, htail⟩ := List.pairwise_cons.mp h
    cases l with
    | nil => exact List.pairwise_singleton _ _
    | cons b l =>
      rw [lastOfRuns]
      split_ifs with hkey
      · exact ih htail
      · refine List.pairwise_cons.mpr ⟨fun c hc => ?_, ih htail⟩
        have hlt : key a < key b := lt_of_le_of_ne (hhead b List.mem_cons_self) hkey
        have hmem := (lastOfRuns_sublist (b :: l)).subset hc
        rcases List.mem_cons.mp hmem with rfl | hin
        · exact hlt
        · exact hlt.trans_le ((List.pairwise_cons.mp htail).1 c hin)

end Runs

/-! ### The last element up to a time -/

section Position
variable {τ : Type*} [LinearOrder τ] {time : α → τ}

/-- The element before the position at which a later time would be inserted. -/
def lastAtMost (time : α → τ) (l : List α) (t : τ) : Option α :=
  let position := l.countP fun a => time a ≤ t
  if position = 0 then none else l[position - 1]?

lemma filter_le_eq_take {l : List α} (h : l.Pairwise fun a b => time a ≤ time b) (t : τ) :
    l.filter (fun a => time a ≤ t) = l.take (l.countP fun a => time a ≤ t) := by
  induction l with
  | nil => rfl
  | cons a l ih =>
    obtain ⟨hhead, htail⟩ := List.pairwise_cons.mp h
    by_cases hle : time a ≤ t
    · rw [List.filter_cons_of_pos (by simpa using hle), List.countP_cons_of_pos (by simpa using hle),
        List.take_succ_cons, ih htail]
    · have hnone : ∀ b ∈ a :: l, ¬ time b ≤ t := by
        intro b hb hbt
        rcases List.mem_cons.mp hb with rfl | hin
        · exact hle hbt
        · exact hle ((hhead b hin).trans hbt)
      rw [List.filter_eq_nil_iff.mpr fun b hb => by simpa using hnone b hb,
        List.countP_eq_zero.mpr fun b hb => by simpa using hnone b hb, List.take_zero]

theorem lastAtMost_eq {l : List α} (h : l.Pairwise fun a b => time a ≤ time b) (t : τ) :
    lastAtMost time l t = (l.filter fun a => time a ≤ t).getLast? := by
  have hle := List.countP_le_length (p := fun a => decide (time a ≤ t)) (l := l)
  unfold lastAtMost
  rw [filter_le_eq_take h]
  by_cases hzero : l.countP (fun a => time a ≤ t) = 0
  · rw [if_pos hzero, hzero, List.take_zero, List.getLast?_nil]
  · rw [if_neg hzero, List.getLast?_eq_getElem?, List.length_take, min_eq_left hle,
      List.getElem?_take_of_lt (by omega)]

end Position

/-! ### States along a history -/

section Scan
variable (step : σ → α → σ)

/-- Each element with the state after it. -/
def scan : σ → List α → List (α × σ)
  | _, [] => []
  | state, a :: l => (a, step state a) :: scan (step state a) l

@[simp] lemma map_fst_scan (state : σ) (l : List α) : (scan step state l).map Prod.fst = l := by
  induction l generalizing state with
  | nil => rfl
  | cons a l ih => rw [scan, List.map_cons, ih]

lemma scan_append_singleton (state : σ) (l : List α) (a : α) :
    scan step state (l ++ [a]) =
      scan step state l ++ [(a, step (l.foldl step state) a)] := by
  induction l generalizing state with
  | nil => rfl
  | cons b l ih => rw [List.cons_append, scan, ih, scan, List.cons_append, List.foldl_cons]

/-- The last element comes with the state after all of them. -/
lemma getLast?_scan (state : σ) (l : List α) :
    (scan step state l).getLast? = l.getLast?.map fun a => (a, l.foldl step state) := by
  induction l using List.reverseRecOn with
  | nil => rfl
  | append_singleton l a _ =>
    rw [scan_append_singleton, List.getLast?_concat, List.getLast?_concat, Option.map_some,
      List.foldl_concat]

/-- Up to a time, the states are those of the history up to this time. -/
lemma filter_scan {τ : Type*} [LinearOrder τ] {time : α → τ} (state : σ) {l : List α}
    (h : l.Pairwise fun a b => time a ≤ time b) (t : τ) :
    (scan step state l).filter (fun entry => time entry.1 ≤ t) =
      scan step state (l.filter fun a => time a ≤ t) := by
  induction l generalizing state with
  | nil => rfl
  | cons a l ih =>
    obtain ⟨hhead, htail⟩ := List.pairwise_cons.mp h
    by_cases hle : time a ≤ t
    · rw [scan, List.filter_cons_of_pos (by simpa using hle),
        List.filter_cons_of_pos (by simpa using hle), scan, ih _ htail]
    · have hnone : ∀ b ∈ a :: l, ¬ time b ≤ t := by
        intro b hb hbt
        rcases List.mem_cons.mp hb with rfl | hin
        · exact hle hbt
        · exact hle ((hhead b hin).trans hbt)
      rw [List.filter_eq_nil_iff.mpr fun entry hentry => ?_,
        List.filter_eq_nil_iff.mpr fun b hb => by simpa using hnone b hb]
      · rfl
      · have hmem := List.mem_map_of_mem (f := Prod.fst) hentry
        rw [map_fst_scan] at hmem
        simpa using hnone _ hmem

variable {ι : Type*} [LinearOrder ι] (group : α → ι) (init : σ)

/-- The state from which a group goes on. -/
def resume (previous : Option (ι × σ)) (g : ι) : σ :=
  match previous with
  | some (last, state) => if last = g then state else init
  | none => init

/-- Each element with the state after it, where each group starts anew. -/
def scanGroups : Option (ι × σ) → List α → List (α × σ)
  | _, [] => []
  | previous, a :: l =>
    let state := step (resume init previous (group a)) a
    (a, state) :: scanGroups (some (group a, state)) l

lemma map_fst_scanGroups (previous : Option (ι × σ)) (l : List α) :
    (scanGroups step group init previous l).map Prod.fst = l := by
  induction l generalizing previous with
  | nil => rfl
  | cons a l ih => rw [scanGroups, List.map_cons, ih]

lemma filter_scanGroups_aux {previous : Option (ι × σ)} {l : List α} (g : ι)
    (hprevious : ∀ last ∈ previous, ∀ a ∈ l, last.1 ≤ group a)
    (h : l.Pairwise fun a b => group a ≤ group b) :
    (scanGroups step group init previous l).filter (fun entry => group entry.1 = g) =
      scan step (resume init previous g) (l.filter fun a => group a = g) := by
  induction l generalizing previous with
  | nil => rfl
  | cons a l ih =>
    obtain ⟨hhead, htail⟩ := List.pairwise_cons.mp h
    have hrest := @ih (some (group a, step (resume init previous (group a)) a))
      (fun last hlast b hb => by cases hlast; exact hhead b hb) htail
    by_cases hgroup : group a = g
    · rw [scanGroups, List.filter_cons_of_pos (by simpa using hgroup), hrest,
        List.filter_cons_of_pos (by simpa using hgroup), scan, hgroup]
      simp [resume]
    · rw [scanGroups, List.filter_cons_of_neg (by simpa using hgroup), hrest,
        List.filter_cons_of_neg (by simpa using hgroup)]
      have hstart : resume init (some (group a, step (resume init previous (group a)) a)) g = init :=
        if_neg hgroup
      rw [hstart]
      -- a group that was left does not come back
      by_cases hsame : ∃ state, previous = some (g, state)
      · obtain ⟨state, rfl⟩ := hsame
        have hlt : g < group a :=
          lt_of_le_of_ne (hprevious _ rfl a List.mem_cons_self) (Ne.symm hgroup)
        rw [List.filter_eq_nil_iff.mpr fun b hb => ?_]
        · rfl
        · have := hlt.trans_le (hhead b hb)
          simpa using this.ne'
      · have hinit : resume init previous g = init := by
          cases previous with
          | none => rfl
          | some last =>
            refine if_neg fun heq => hsame ⟨last.2, ?_⟩
            rw [← heq]
        rw [hinit]

/-- In a list sorted by group, each group is scanned by itself. -/
theorem filter_scanGroups {l : List α} (g : ι) (h : l.Pairwise fun a b => group a ≤ group b) :
    (scanGroups step group init none l).filter (fun entry => group entry.1 = g) =
      scan step init (l.filter fun a => group a = g) :=
  filter_scanGroups_aux step group init g nofun h

end Scan

/-! ### The greatest element -/

section Greatest
variable {ι : Type*} [LinearOrder ι] {key : α → ι}

lemma sorted_mergeSort (key : α → ι) (l : List α) :
    (l.mergeSort fun a b => key a ≤ key b).Pairwise fun a b => key a ≤ key b := by
  have hsorted := @List.pairwise_mergeSort _ (fun a b => decide (key a ≤ key b))
    (fun a b c hab hbc => decide_eq_true ((of_decide_eq_true hab).trans (of_decide_eq_true hbc)))
    (fun a b => by simpa using le_total (key a) (key b)) l
  exact hsorted.imp of_decide_eq_true

/-- The last element of a sorted list is a greatest one. -/
lemma le_of_getLast? {l : List α} (h : l.Pairwise fun a b => key a ≤ key b) {a : α}
    (hlast : l.getLast? = some a) : ∀ b ∈ l, key b ≤ key a := by
  obtain ⟨front, rfl⟩ := List.getLast?_eq_some_iff.mp hlast
  intro b hb
  rcases List.mem_append.mp hb with hfront | hsame
  · exact (List.pairwise_append.mp h).2.2 b hfront a List.mem_cons_self
  · rw [List.mem_singleton.mp hsame]

lemma getLast?_sorted_iff {l : List α} (h : l.Pairwise fun a b => key a ≤ key b)
    (hkey : ∀ a ∈ l, ∀ b ∈ l, key a = key b → a = b) {a : α} :
    l.getLast? = some a ↔ a ∈ l ∧ ∀ b ∈ l, key b ≤ key a := by
  refine ⟨fun hlast => ⟨List.mem_of_getLast? hlast, le_of_getLast? h hlast⟩,
    fun ⟨hmem, hgreatest⟩ => ?_⟩
  cases hlast : l.getLast? with
  | none => simp [List.getLast?_eq_none_iff.mp hlast] at hmem
  | some b =>
    have hb := List.mem_of_getLast? hlast
    rw [hkey a hmem b hb (le_antisymm (le_of_getLast? h hlast a hmem) (hgreatest b hb))]

end Greatest

/-! ### Running maxima -/

section Maxima
variable {ι : Type*} [LinearOrder ι] (order : α → ι)

/-- The running maximum. -/
def raise (maximum : WithBot ι) (a : α) : WithBot ι := max maximum (order a)

lemma foldl_raise (maximum : WithBot ι) (l : List α) :
    l.foldl (raise order) maximum = max maximum (l.map order).maximum := by
  induction l generalizing maximum with
  | nil => simp
  | cons a l ih => rw [List.foldl_cons, ih, List.map_cons, List.maximum_cons, raise, max_assoc]

/-- The last element that attains the running maximum is the last that attains the maximum. -/
theorem getLast?_records (l : List α) :
    ((scan (raise order) ⊥ l).filter fun entry => (order entry.1 : WithBot ι) = entry.2).getLast?.map
        Prod.fst =
      (l.filter fun a => (order a : WithBot ι) = (l.map order).maximum).getLast? := by
  induction l using List.reverseRecOn with
  | nil => rfl
  | append_singleton l a ih =>
    have hfold : ∀ m : List α, m.foldl (raise order) ⊥ = (m.map order).maximum := fun m =>
      (foldl_raise order ⊥ m).trans (max_eq_right bot_le)
    have hmax : ((l ++ [a]).map order).maximum = max (l.map order).maximum (order a) := by
      rw [← hfold, List.foldl_concat, hfold, raise]
    rw [scan_append_singleton, hfold, List.filter_append, List.filter_append, hmax]
    by_cases hle : (l.map order).maximum ≤ order a
    · have hraise : raise order (l.map order).maximum a = order a := max_eq_right hle
      rw [max_eq_right hle, hraise]
      simp
    · have hlt := not_le.mp hle
      have hraise : raise order (l.map order).maximum a = (l.map order).maximum :=
        max_eq_left hlt.le
      rw [max_eq_left hlt.le, hraise]
      simpa [hlt.ne] using ih

end Maxima

end AsOf
