import Mathlib.Algebra.BigOperators.Group.List.Lemmas
import Mathlib.Algebra.Ring.Nat
import Mathlib.Data.List.Sort
import Mathlib.Data.List.SplitBy
import Mathlib.Order.Lattice

/-!
# Ranks with ties

The position of a value among a list of values is the number of smaller ones. Two algorithms find
it: cumulative counts of the sorted distinct values, and runs of equal values of a sorted list.
-/

namespace Ranking

variable {α β : Type*} [LinearOrder β]

/-! ### Distinct values -/

/-- The sorted distinct values of a list. -/
def distinct (xs : List β) : List β := (xs.mergeSort (· ≤ ·)).dedup

lemma distinct_pairwise (xs : List β) : (distinct xs).Pairwise (· < ·) := by
  have hsorted : (distinct xs).Pairwise (· ≤ ·) :=
    (List.pairwise_mergeSort' (· ≤ ·) xs).sublist (List.dedup_sublist _)
  have hnodup : (distinct xs).Pairwise (· ≠ ·) := List.nodup_dedup _
  exact hsorted.imp₂ (fun _ _ hle hne => lt_of_le_of_ne hle hne) hnodup

lemma mem_distinct {x : β} {xs : List β} : x ∈ distinct xs ↔ x ∈ xs := by
  simp [distinct]

/-- In an increasing list, the smaller values stand before a value. -/
lemma take_idxOf_eq_filter {us : List β} (h : us.Pairwise (· < ·)) {x : β} (hx : x ∈ us) :
    us.take (us.idxOf x) = us.filter (· < x) := by
  induction us with
  | nil => cases hx
  | cons u us ih =>
    obtain ⟨hhead, htail⟩ := List.pairwise_cons.mp h
    by_cases heq : u = x
    · subst heq
      rw [List.idxOf_cons_self, List.take_zero]
      symm
      rw [List.filter_eq_nil_iff]
      intro y hy
      have hle : u ≤ y := (List.mem_cons.mp hy).elim (fun hyu => hyu.ge) fun hmem => (hhead y hmem).le
      simpa using hle
    · have hmem : x ∈ us := (List.mem_cons.mp hx).resolve_left (Ne.symm heq)
      rw [List.idxOf_cons_ne _ heq, List.take_succ_cons, ih htail hmem,
        List.filter_cons_of_pos (by simpa using hhead x hmem)]

/-- Counts of the distinct values before a value add up to its position. -/
theorem sum_counts_take_idxOf {xs : List β} {x : β} (hx : x ∈ xs) :
    (((distinct xs).map fun u => xs.count u).take ((distinct xs).idxOf x)).sum
      = xs.countP (· < x) := by
  have hsorted := List.mergeSort_perm xs (· ≤ ·)
  have hcount := List.sum_map_count_dedup_filter_eq_countP (fun u => decide (u < x))
    (xs.mergeSort (· ≤ ·))
  rw [← List.map_take, take_idxOf_eq_filter (distinct_pairwise xs) (mem_distinct.mpr hx),
    ← hsorted.countP_eq, ← hcount, distinct]
  simp only [hsorted.count_eq]

/-! ### Runs of equal values -/

variable (key : α → β)

/-- A value ranks within its list. -/
lemma countP_lt_add_countP_eq_le (xs : List α) (k : β) :
    xs.countP (fun x => key x < k) + xs.countP (fun x => key x = k) ≤ xs.length := by
  induction xs with
  | nil => exact Nat.le_refl 0
  | cons x xs ih =>
    rw [List.countP_cons, List.countP_cons, List.length_cons]
    have hne : key x < k → key x ≠ k := fun hlt => hlt.ne
    split_ifs <;> simp_all <;> omega

/-- Runs of equal keys, with increasing keys from run to run. -/
structure Runs (runs : List (List α)) : Prop where
  equal : ∀ run ∈ runs, ∀ x ∈ run, ∀ y ∈ run, key x = key y
  increasing : runs.Pairwise fun run later => ∀ x ∈ run, ∀ y ∈ later, key x < key y

variable {key}

lemma Runs.tail {run : List α} {runs : List (List α)} (h : Runs key (run :: runs)) :
    Runs key runs :=
  ⟨fun other hother => h.equal other (List.mem_cons_of_mem _ hother),
    (List.pairwise_cons.mp h.increasing).2⟩

/-- The smaller values of a run are those of the runs before it. -/
lemma Runs.countP_head {run : List α} {runs : List (List α)} (h : Runs key (run :: runs)) {x : α}
    (hx : x ∈ run) :
    (run :: runs).flatten.countP (fun y => key y < key x) = 0
      ∧ (run :: runs).flatten.countP (fun y => key y = key x) = run.length := by
  have hlater : ∀ y ∈ runs.flatten, key x < key y := by
    intro y hy
    obtain ⟨later, hlater, hmem⟩ := List.mem_flatten.mp hy
    exact (List.pairwise_cons.mp h.increasing).1 later hlater x hx y hmem
  have hequal : ∀ y ∈ run, key y = key x := fun y hy =>
    h.equal run List.mem_cons_self y hy x hx
  constructor
  · rw [List.countP_eq_zero, List.flatten_cons]
    intro y hy
    rcases List.mem_append.mp hy with hrun | hruns
    · simp [hequal y hrun]
    · simpa using (hlater y hruns).le
  · rw [List.flatten_cons, List.countP_append, List.countP_eq_length.mpr (by simpa using hequal),
      List.countP_eq_zero.mpr (by simpa using fun y hy => (hlater y hy).ne'), Nat.add_zero]

/-- Behind the first run, all of it counts as smaller. -/
lemma Runs.countP_tail {run : List α} {runs : List (List α)} (h : Runs key (run :: runs)) {x : α}
    (hx : x ∈ runs.flatten) :
    (run :: runs).flatten.countP (fun y => key y < key x)
        = run.length + runs.flatten.countP (fun y => key y < key x)
      ∧ (run :: runs).flatten.countP (fun y => key y = key x)
        = runs.flatten.countP (fun y => key y = key x) := by
  obtain ⟨later, hlater, hmem⟩ := List.mem_flatten.mp hx
  have hless : ∀ y ∈ run, key y < key x := fun y hy =>
    (List.pairwise_cons.mp h.increasing).1 later hlater y hy x hmem
  have hsmaller : run.countP (fun y => key y < key x) = run.length :=
    List.countP_eq_length.mpr (by simpa using hless)
  have hequal : run.countP (fun y => key y = key x) = 0 :=
    List.countP_eq_zero.mpr (by simpa using fun y hy => (hless y hy).ne)
  rw [List.flatten_cons, List.countP_append, List.countP_append, hsmaller, hequal, Nat.zero_add]
  exact ⟨rfl, rfl⟩

omit [LinearOrder β] in
/-- Equal neighbours make equal runs. -/
lemma eq_of_isChain {run : List α} (h : run.IsChain fun x y => key x = key y) :
    ∀ x ∈ run, ∀ y ∈ run, key x = key y := by
  have hhead : ∀ x ∈ run, ∀ first ∈ run.head?, key first = key x := by
    induction run with
    | nil => exact fun x hx => nomatch hx
    | cons z run ih =>
      intro x hx first hfirst
      cases hfirst
      rcases List.mem_cons.mp hx with rfl | hmem
      · rfl
      · cases run with
        | nil => cases hmem
        | cons w run => exact (List.isChain_cons_cons.mp h).1.trans (ih h.tail x hmem w rfl)
  intro x hx y hy
  cases run with
  | nil => cases hx
  | cons z run => exact (hhead x hx z rfl).symm.trans (hhead y hy z rfl)

/-- Runs of a sorted list whose neighbours differ increase throughout. -/
lemma pairwise_of_isChain {runs : List (List α)}
    (hequal : ∀ run ∈ runs, ∀ x ∈ run, ∀ y ∈ run, key x = key y)
    (hsorted : runs.Pairwise fun run later => ∀ x ∈ run, ∀ y ∈ later, key x ≤ key y)
    (h : runs.IsChain fun run next => ∃ x ∈ run, ∃ y ∈ next, key x ≠ key y) :
    runs.Pairwise fun run later => ∀ x ∈ run, ∀ y ∈ later, key x < key y := by
  induction runs with
  | nil => exact .nil
  | cons run runs ih =>
    obtain ⟨hle, hsortedTail⟩ := List.pairwise_cons.mp hsorted
    have htail := ih (fun other hother => hequal other (List.mem_cons_of_mem _ hother))
      hsortedTail h.tail
    refine .cons ?_ htail
    cases runs with
    | nil => exact fun later hlater => nomatch hlater
    | cons next runs =>
      obtain ⟨⟨x', hx', y', hy', hne⟩, _⟩ := List.isChain_cons_cons.mp h
      have hnext : ∀ x ∈ run, ∀ y ∈ next, key x < key y := by
        intro x hx y hy
        rw [hequal run List.mem_cons_self x hx x' hx',
          hequal next (List.mem_cons_of_mem _ List.mem_cons_self) y hy y' hy']
        exact lt_of_le_of_ne (hle next List.mem_cons_self x' hx' y' hy') hne
      intro later hlater
      rcases List.mem_cons.mp hlater with rfl | hmem
      · exact hnext
      · intro x hx y hy
        exact (hnext x hx y' hy').trans ((List.pairwise_cons.mp htail).1 later hmem y' hy' y hy)

/-- A sorted list split where the key changes. -/
theorem runs_splitBy {xs : List α} (h : xs.Pairwise fun x y => key x ≤ key y) :
    Runs key (xs.splitBy fun x y => decide (key x = key y)) := by
  have hequal : ∀ run ∈ xs.splitBy fun x y => decide (key x = key y),
      ∀ x ∈ run, ∀ y ∈ run, key x = key y := by
    intro run hrun
    apply eq_of_isChain
    exact (List.isChain_of_mem_splitBy hrun).imp fun x y heq => of_decide_eq_true heq
  rw [← List.flatten_splitBy (fun x y => decide (key x = key y)) xs, List.pairwise_flatten] at h
  refine ⟨hequal, pairwise_of_isChain hequal h.2 ?_⟩
  apply (List.isChain_getLast_head_splitBy (fun x y => decide (key x = key y)) xs).imp
  rintro run next ⟨hrun, hnext, hne⟩
  exact ⟨_, List.getLast_mem hrun, _, List.head_mem hnext, of_decide_eq_false hne⟩

end Ranking
