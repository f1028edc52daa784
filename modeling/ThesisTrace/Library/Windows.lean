import Mathlib.Data.List.Basic
import Mathlib.Data.List.Nodup
import Mathlib.Order.Basic

/-!
# Windows of a list

The window of a list between two positions, `(l.take stop).drop start`, by the positions of its
elements: in a list without repetitions an element has one position. `flatMap_ite` singles out
the part of one element.
-/

namespace Windows

variable {α : Type*} [DecidableEq α] {l : List α} {start stop : ℕ} {x : α}

lemma window_append_drop {β : Type*} {l : List β} (h : start ≤ stop) :
    (l.take stop).drop start ++ l.drop stop = l.drop start := by
  have hdrop : l.drop stop = (l.drop start).drop (stop - start) := by
    rw [List.drop_drop]
    congr 1
    omega
  rw [List.drop_take, hdrop, List.take_append_drop]

lemma mem_drop_iff (hl : l.Nodup) (hx : x ∈ l) : x ∈ l.drop start ↔ start ≤ l.idxOf x := by
  constructor
  · intro hdrop
    by_contra hlt
    have htake : x ∈ l.take start := (List.mem_take_iff_idxOf_lt hx).mpr (by omega)
    exact List.disjoint_take_drop hl (Nat.le_refl _) htake hdrop
  · intro hle
    have hsplit : x ∈ l.take start ++ l.drop start := (List.take_append_drop start l).symm ▸ hx
    refine (List.mem_append.mp hsplit).resolve_left fun htake => ?_
    have hlt := (List.mem_take_iff_idxOf_lt hx).mp htake
    omega

lemma mem_window (hl : l.Nodup) (hx : x ∈ l) :
    x ∈ (l.take stop).drop start ↔ start ≤ l.idxOf x ∧ l.idxOf x < stop := by
  by_cases htake : x ∈ l.take stop
  · have hstop := (List.mem_take_iff_idxOf_lt hx).mp htake
    rw [mem_drop_iff (hl.sublist (List.take_sublist _ _)) htake,
      (List.take_prefix stop l).idxOf_eq_of_mem htake]
    simp [hstop]
  · have hstop := mt (List.mem_take_iff_idxOf_lt hx).mpr htake
    simp only [hstop, and_false, iff_false]
    exact fun hmem => htake (List.mem_of_mem_drop hmem)

/-- The position of an element in a window. -/
lemma idxOf_window (hl : l.Nodup) (hx : x ∈ l) (hstart : start ≤ l.idxOf x)
    (hstop : l.idxOf x < stop) : ((l.take stop).drop start).idxOf x = l.idxOf x - start := by
  have hlength := List.idxOf_lt_length_of_mem hx
  have hwindow : l.idxOf x - start < ((l.take stop).drop start).length := by
    simp only [List.length_drop, List.length_take]
    omega
  have hget : ((l.take stop).drop start)[l.idxOf x - start] = x := by
    rw [List.getElem_drop, List.getElem_take]
    have hsame : start + (l.idxOf x - start) = l.idxOf x := by omega
    simp only [hsame, List.getElem_idxOf]
  have hnodup := hl.sublist ((List.drop_sublist start _).trans (List.take_sublist stop l))
  conv_lhs => rw [← hget]
  exact hnodup.idxOf_getElem _ _

/-- A window holds the elements with its positions, in their order. -/
lemma filter_window (hl : l.Nodup) :
    l.filter (fun x => start ≤ l.idxOf x ∧ l.idxOf x < stop) = (l.take stop).drop start := by
  have hrest : (l.drop stop).filter (fun x => start ≤ l.idxOf x ∧ l.idxOf x < stop) = [] := by
    rw [List.filter_eq_nil_iff]
    intro x hx
    have hstop := (mem_drop_iff hl (List.mem_of_mem_drop hx)).mp hx
    simp only [decide_eq_true_eq, not_and]
    omega
  have hbefore : ((l.take stop).take start).filter
      (fun x => start ≤ l.idxOf x ∧ l.idxOf x < stop) = [] := by
    rw [List.filter_eq_nil_iff]
    intro x hx
    rw [List.take_take] at hx
    have hstart := (List.mem_take_iff_idxOf_lt (List.mem_of_mem_take hx)).mp hx
    simp only [decide_eq_true_eq, not_and]
    omega
  have hwindow : ((l.take stop).drop start).filter
      (fun x => start ≤ l.idxOf x ∧ l.idxOf x < stop) = (l.take stop).drop start := by
    rw [List.filter_eq_self]
    intro x hx
    have hmem := List.mem_of_mem_take (List.mem_of_mem_drop hx)
    simpa using (mem_window hl hmem).mp hx
  have hsplit : ∀ P : α → Bool, l.filter P = ((l.take stop).take start).filter P ++
      ((l.take stop).drop start).filter P ++ (l.drop stop).filter P := by
    intro P
    rw [← List.filter_append, ← List.filter_append, List.take_append_drop,
      List.take_append_drop]
  rw [hsplit, hrest, hbefore, hwindow, List.nil_append, List.append_nil]

/-- A list without repetitions has one part for each element. -/
lemma flatMap_ite {β : Type*} (hl : l.Nodup) (x : α) (f : α → List β) :
    (l.flatMap fun y => if y = x then f y else []) = if x ∈ l then f x else [] := by
  induction l with
  | nil => rfl
  | cons y l ih =>
    obtain ⟨hnotin, hl⟩ := List.nodup_cons.mp hl
    rw [List.flatMap_cons, ih hl]
    by_cases heq : y = x
    · subst heq
      rw [if_pos rfl, if_neg hnotin, if_pos List.mem_cons_self, List.append_nil]
    · rw [if_neg heq, List.nil_append]
      simp only [List.mem_cons, Ne.symm heq, false_or]

end Windows
