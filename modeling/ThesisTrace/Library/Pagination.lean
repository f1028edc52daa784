import Mathlib.Data.List.Basic
import Mathlib.Data.List.Count
import Mathlib.Order.Lattice

/-!
# Cursor pagination

A reader answers a cursor with a page of rows and the next cursor, or with an error. Following
the cursors of a lossless reader ends and returns exactly the rows that were left at the start.
-/

namespace Pagination

variable {C R ε : Type*}

structure Page (C R : Type*) where
  rows : List R
  next : Option C
  deriving DecidableEq, Repr

/-- The rows of the pages from page `i` on, with at most `fuel` of them. Page `i` is read with the
limits of its own request. -/
def follow (read : ℕ → Option C → Except ε (Page C R)) :
    ℕ → ℕ → Option C → Except ε (Option (List R))
  | 0, _, _ => .ok none
  | fuel + 1, i, c =>
    match read i c with
    | .error e => .error e
    | .ok ⟨rows, none⟩ => .ok (some rows)
    | .ok ⟨rows, some c'⟩ =>
      (follow read fuel (i + 1) (some c')).map fun rest => rest.map (rows ++ ·)

/-- A page splits the rows that are left into its own rows and those left at the next cursor,
which lies further on. -/
def Splits (rest : Option C → List R) (size : Option C → ℕ) (valid : Option C → Prop)
    (c : Option C) (page : Page C R) : Prop :=
  match page.next with
  | none => rest c = page.rows
  | some c' => rest c = page.rows ++ rest (some c') ∧ size (some c') < size c ∧ valid (some c')

/-- A page that splits what is left, and then all that is left at its cursor, is all of it. -/
lemma follow_splits {read : ℕ → Option C → Except ε (Page C R)} {rest : Option C → List R}
    {size : Option C → ℕ} {valid : Option C → Prop} {fuel i : ℕ} {c : Option C} {page : Page C R}
    (hpage : read i c = .ok page) (hsplits : Splits rest size valid c page)
    (hfollow : ∀ c', valid (some c') → size (some c') < size c →
      follow read fuel (i + 1) (some c') = .ok (some (rest (some c')))) :
    follow read (fuel + 1) i c = .ok (some (rest c)) := by
  obtain ⟨rows, next⟩ := page
  unfold follow
  rw [hpage]
  cases next with
  | none =>
    have hrest : rest c = rows := hsplits
    simp only [hrest]
  | some c' =>
    obtain ⟨hrest, hsize, hnext⟩ : rest c = rows ++ rest (some c') ∧
      size (some c') < size c ∧ valid (some c') := hsplits
    simp only [hfollow c' hnext hsize, hrest]
    rfl

/-- Following the cursors of a reader whose pages split what is left ends with all of it. -/
theorem follow_lossless {read : ℕ → Option C → Except ε (Page C R)} {rest : Option C → List R}
    {size : Option C → ℕ} {valid : Option C → Prop}
    (hread : ∀ i c, valid c → ∃ page, read i c = .ok page ∧ Splits rest size valid c page)
    {fuel : ℕ} (i : ℕ) {c : Option C} (hvalid : valid c) (hfuel : size c < fuel) :
    follow read fuel i c = .ok (some (rest c)) := by
  induction fuel generalizing i c with
  | zero => omega
  | succ fuel ih =>
    obtain ⟨page, hpage, hsplits⟩ := hread i c hvalid
    exact follow_splits hpage hsplits fun c' hnext hsize => ih (i + 1) hnext (by omega)

/-! ### Pages of the first rows -/

/-- What has been collected of some rows is all of them, or their start and more than the limit. -/
def Collects (limit : ℕ) (rows kept : List R) : Prop :=
  ∃ tail, rows = kept ++ tail ∧ (tail = [] ∨ limit < kept.length)

lemma collects_self (limit : ℕ) (rows : List R) : Collects limit rows rows :=
  ⟨[], (List.append_nil rows).symm, .inl rfl⟩

/-- A page of the first rows of those collected. -/
def pageOf (cursor : R → C) (kept : List R) (limit : ℕ) : Page C R where
  rows := kept.take limit
  next := if limit < kept.length then (kept.take limit).getLast?.map cursor else none

/-- A page of the first rows of those left splits them, where the cursor at any of the rows leaves
those behind it. -/
theorem Collects.splits {rest : Option C → List R} {valid : Option C → Prop} {cursor : R → C}
    {c : Option C} {kept : List R} {limit : ℕ} (hcollects : Collects limit (rest c) kept)
    (hpos : 0 < limit)
    (hnext : ∀ n row, (rest c)[n]? = some row →
      rest (some (cursor row)) = (rest c).drop (n + 1) ∧ valid (some (cursor row))) :
    Splits rest (fun c => (rest c).length) valid c (pageOf cursor kept limit) := by
  obtain ⟨tail, hrest, htail⟩ := hcollects
  by_cases hmore : limit < kept.length
  · have hindex : limit - 1 < kept.length := by omega
    have hlast : (kept.take limit).getLast? = some kept[limit - 1] := by
      rw [List.getLast?_eq_getElem?, List.length_take, Nat.min_eq_left (Nat.le_of_lt hmore),
        List.getElem?_take_of_lt (by omega), List.getElem?_eq_getElem hindex]
    have hrow : (rest c)[limit - 1]? = some kept[limit - 1] := by
      rw [hrest, List.getElem?_append_left hindex, List.getElem?_eq_getElem hindex]
    obtain ⟨hdrop, hvalid⟩ := hnext _ _ hrow
    have htake : kept.take limit = (rest c).take limit := by
      rw [hrest, List.take_append_of_le_length (Nat.le_of_lt hmore)]
    rw [Nat.sub_add_cancel hpos] at hdrop
    unfold Splits pageOf
    simp only [if_pos hmore, hlast, Option.map_some, hdrop]
    refine ⟨?_, ?_, hvalid⟩
    · rw [htake, List.take_append_drop]
    · rw [List.length_drop, hrest, List.length_append]
      omega
  · have hnil : tail = [] := htail.resolve_right hmore
    unfold Splits pageOf
    simp only [if_neg hmore]
    rw [hrest, hnil, List.append_nil, List.take_of_length_le (by omega)]

/-- The page with its rows mapped. -/
def Page.map {S : Type*} (f : R → S) (page : Page C R) : Page C S := ⟨page.rows.map f, page.next⟩

lemma Splits.map {S : Type*} (f : R → S) {rest : Option C → List R} {size : Option C → ℕ}
    {valid : Option C → Prop} {c : Option C} {page : Page C R}
    (h : Splits rest size valid c page) :
    Splits (fun c => (rest c).map f) size valid c (page.map f) := by
  obtain ⟨rows, next⟩ := page
  cases next with
  | none =>
    have hrest : rest c = rows := h
    exact congrArg (List.map f) hrest
  | some c' =>
    obtain ⟨hrest, hsize, hnext⟩ : rest c = rows ++ rest (some c') ∧
      size (some c') < size c ∧ valid (some c') := h
    exact ⟨(congrArg (List.map f) hrest).trans (List.map_append ..), hsize, hnext⟩

/-- The rows of an increasing list that one of its rows precedes. -/
lemma filter_getElem_of_pairwise {lt : R → R → Prop} [DecidableRel lt]
    (hasymm : ∀ a b, lt a b → ¬lt b a) {rows : List R} (hsorted : rows.Pairwise lt) {i : ℕ}
    (hi : i < rows.length) : rows.filter (fun row => lt rows[i] row) = rows.drop (i + 1) := by
  induction rows generalizing i with
  | nil => simp at hi
  | cons row rows ih =>
    obtain ⟨hhead, htail⟩ := List.pairwise_cons.mp hsorted
    cases i with
    | zero =>
      have hirrefl : ¬lt row row := fun h => hasymm row row h h
      simp only [List.getElem_cons_zero, Nat.zero_add, List.drop_succ_cons, List.drop_zero]
      rw [List.filter_cons_of_neg (by simpa using hirrefl), List.filter_eq_self]
      intro a ha
      simpa using hhead a ha
    | succ i =>
      have hlt : i < rows.length := by simpa using hi
      simp only [List.getElem_cons_succ, List.drop_succ_cons]
      rw [List.filter_cons_of_neg, ih htail hlt]
      simpa using hasymm _ _ (hhead _ (List.getElem_mem hlt))

/-! ### Keyed rows -/

variable {K : Type*} [LinearOrder K] (key : R → K)

/-- The row lies after the cursor; no cursor lies before every row. -/
def after (c : Option K) (row : R) : Bool :=
  c.all fun k => decide (k < key row)

@[simp] lemma after_none (row : R) : after key none row = true := rfl

@[simp] lemma after_some (k : K) (row : R) : after key (some k) row = decide (k < key row) := rfl

/-- Cursors in the order of what they leave. -/
def Reaches (c c' : Option K) : Prop :=
  ∀ row : R, after key c' row = true → after key c row = true

variable {key}

lemma reaches_of_le {k k' : K} (h : k ≤ k') : Reaches key (some k) (some k') := by
  intro row hrow
  simp only [after_some, decide_eq_true_eq] at hrow ⊢
  exact lt_of_le_of_lt h hrow

/-- The rows of an increasing list after the key of one of its rows. -/
lemma filter_after_getElem {rows : List R} (hsorted : rows.Pairwise fun a b => key a < key b)
    {i : ℕ} (hi : i < rows.length) :
    rows.filter (after key (some (key rows[i]))) = rows.drop (i + 1) :=
  filter_getElem_of_pairwise (fun _ _ => lt_asymm) hsorted hi

/-- A cursor that moved past one of the rows leaves fewer of them. -/
lemma countP_after_lt {rows : List R} {c c' : Option K} (hreaches : Reaches key c c') {row : R}
    (hrow : row ∈ rows) (hbefore : after key c row = true) (hpast : after key c' row = false) :
    rows.countP (after key c') < rows.countP (after key c) := by
  induction rows with
  | nil => simp at hrow
  | cons head rows ih =>
    have hle : rows.countP (after key c') ≤ rows.countP (after key c) :=
      List.countP_mono_left fun a _ => hreaches a
    rw [List.countP_cons, List.countP_cons]
    rcases List.mem_cons.mp hrow with rfl | hmem
    · simp only [hbefore, hpast, Bool.false_eq_true, if_false, if_true]
      omega
    · have hlt := ih hmem
      by_cases hhead : after key c' head = true
      · simp only [hhead, hreaches head hhead, if_true]
        omega
      · simp only [hhead, if_false, Bool.false_eq_true]
        omega

/-! ### Pages of the rows that match -/

variable (key)

/-- A row after the cursor that the reader looks for. -/
def wanted (matching : R → Bool) (c : Option K) (row : R) : Bool :=
  after key c row && matching row

/-- All rows are looked for. -/
lemma wanted_true (c : Option K) : wanted key (fun _ => true) c = after key c :=
  funext fun row => Bool.and_true (after key c row)

/-- A page read at a cursor cuts the wanted rows in two, its own ones and those wanted at its next
cursor, which has moved past one of the rows. -/
def Cuts (matching : R → Bool) (whole : List R) (c : Option K) (page : Page K R) : Prop :=
  match page.next with
  | none => whole.filter (wanted key matching c) = page.rows
  | some k =>
    whole.filter (wanted key matching c) =
      page.rows ++ whole.filter (wanted key matching (some k)) ∧
    Reaches key c (some k) ∧
    ∃ row ∈ whole, after key c row = true ∧ after key (some k) row = false

variable {key} {matching : R → Bool} {whole : List R} {c : Option K}

/-- Later cursors leave some of the rows that earlier ones left. -/
lemma wanted_of_reaches {k : K} (h : Reaches key c (some k)) (row : R) :
    wanted key matching (some k) row = (after key (some k) row && wanted key matching c row) := by
  unfold wanted
  by_cases hrow : after key (some k) row = true
  · rw [hrow, h row hrow]
    rfl
  · rw [Bool.not_eq_true] at hrow
    rw [hrow]
    rfl

/-- The rows wanted at the key of one of the wanted rows are those behind it. -/
lemma filter_wanted_getElem (hsorted : whole.Pairwise fun a b => key a < key b) {n : ℕ} {row : R}
    (hrow : (whole.filter (wanted key matching c))[n]? = some row) :
    whole.filter (wanted key matching (some (key row))) =
      (whole.filter (wanted key matching c)).drop (n + 1) := by
  obtain ⟨hn, hget⟩ := List.getElem?_eq_some_iff.mp hrow
  have hmem : row ∈ whole.filter (wanted key matching c) := List.mem_of_getElem? hrow
  obtain ⟨-, hwanted⟩ := List.mem_filter.mp hmem
  have hafter : after key c row = true := (Bool.and_eq_true_iff.mp hwanted).1
  have hreaches : Reaches key c (some (key row)) := by
    cases c with
    | none => exact fun _ _ => rfl
    | some b => exact reaches_of_le (of_decide_eq_true hafter).le
  have hsublist := hsorted.filter (wanted key matching c)
  rw [List.filter_congr fun row _ => wanted_of_reaches hreaches row, ← List.filter_filter, ← hget,
    filter_after_getElem hsublist hn]

/-- A page that ends after any of the wanted rows. -/
lemma cuts_take (hsorted : whole.Pairwise fun a b => key a < key b) {n : ℕ} (hpos : 0 < n)
    (hle : n ≤ (whole.filter (wanted key matching c)).length) :
    Cuts key matching whole c
      ⟨(whole.filter (wanted key matching c)).take n,
        (whole.filter (wanted key matching c))[n - 1]?.map key⟩ := by
  have hindex : n - 1 < (whole.filter (wanted key matching c)).length := by omega
  have hrow := List.getElem?_eq_getElem hindex
  have hdrop := filter_wanted_getElem hsorted hrow
  obtain ⟨hwhole, hwanted⟩ := List.mem_filter.mp (List.getElem_mem hindex)
  have hafter := (Bool.and_eq_true_iff.mp hwanted).1
  have hreaches : Reaches key c (some (key (whole.filter (wanted key matching c))[n - 1])) := by
    cases c with
    | none => exact fun _ _ => rfl
    | some b => exact reaches_of_le (of_decide_eq_true hafter).le
  rw [Nat.sub_add_cancel hpos] at hdrop
  unfold Cuts
  rw [hrow]
  simp only [Option.map_some]
  refine ⟨?_, hreaches, _, hwhole, hafter, ?_⟩
  · rw [hdrop, List.take_append_drop]
  · simp

/-- A page that ends between two rows: nothing before its cursor is left and everything after
it is. -/
lemma cuts_append {done rest : List R} {k : K} (hreaches : Reaches key c (some k))
    (hdone : ∀ row ∈ done, matching row = true → after key (some k) row = false)
    (hrest : ∀ row ∈ rest, after key (some k) row = true)
    (hpast : ∃ row ∈ done, after key c row = true ∧ after key (some k) row = false) :
    Cuts key matching (done ++ rest) c ⟨done.filter (wanted key matching c), some k⟩ := by
  obtain ⟨row, hrow, hbefore, hafter⟩ := hpast
  refine ⟨?_, hreaches, row, List.mem_append_left _ hrow, hbefore, hafter⟩
  have hempty : done.filter (wanted key matching (some k)) = [] := by
    rw [List.filter_eq_nil_iff]
    intro row hrow hwanted
    obtain ⟨hafter, hmatching⟩ := Bool.and_eq_true_iff.mp hwanted
    rw [hdone row hrow hmatching] at hafter
    exact Bool.false_ne_true hafter
  have hsame : rest.filter (wanted key matching (some k)) =
      rest.filter (wanted key matching c) := by
    apply List.filter_congr
    intro row hrow
    rw [wanted_of_reaches hreaches, hrest row hrow, Bool.true_and]
  rw [List.filter_append, List.filter_append, hempty, hsame, List.nil_append]

/-- Pages that cut are pages that split. -/
lemma Cuts.splits {page : Page K R} (h : Cuts key matching whole c page) :
    Splits (fun c => whole.filter (wanted key matching c))
      (fun c => whole.countP (after key c)) (fun _ => True) c page := by
  obtain ⟨rows, next⟩ := page
  cases next with
  | none => exact h
  | some k =>
    obtain ⟨hleft, hreaches, row, hrow, hbefore, hpast⟩ := h
    exact ⟨hleft, countP_after_lt hreaches hrow hbefore hpast, trivial⟩

end Pagination
