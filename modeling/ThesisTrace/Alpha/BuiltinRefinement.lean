import ThesisTrace.Alpha.Meaning

/-!
# Builtins on Python numbers

A series of Python numbers stands for a series of binary64 numbers where both have the same missing
cells and equal numbers. On integers that binary64 represents, every builtin keeps this relation.
-/

namespace ThesisTrace.Alpha
open Numeric Transaction SlidingWindow

/-! ### Lists of fallible cells -/

section Lists

variable {α β γ δ ε : Type}

lemma mapM_forall₂ {R : α → β → Prop} {S : γ → δ → Prop} {f : α → Except ε γ} {g : β → δ}
    {xs : List α} {ys : List β} (h : List.Forall₂ R xs ys)
    (hcell : ∀ x y, R x y → ∃ z, f x = .ok z ∧ S z (g y)) :
    ∃ zs, xs.mapM f = .ok zs ∧ List.Forall₂ S zs (ys.map g) := by
  induction h with
  | nil => exact ⟨[], rfl, .nil⟩
  | cons hxy _ ih =>
    obtain ⟨z, hz, hS⟩ := hcell _ _ hxy
    obtain ⟨zs, hzs, hrest⟩ := ih
    refine ⟨z :: zs, ?_, .cons hS hrest⟩
    rw [List.mapM_cons, hz, hzs]
    rfl

/-- A list whose elements are all computed, each with a property of its own. -/
lemma mapM_forall₂_ok {f : α → Except ε β} {Q : α → β → Prop} {as : List α}
    (h : ∀ a ∈ as, ∃ b, f a = .ok b ∧ Q a b) :
    ∃ bs, as.mapM f = .ok bs ∧ List.Forall₂ Q as bs := by
  induction as with
  | nil => exact ⟨[], rfl, .nil⟩
  | cons a as ih =>
    obtain ⟨b, hb, hQ⟩ := h a List.mem_cons_self
    obtain ⟨bs, hbs, hrest⟩ := ih fun a' ha' => h a' (List.mem_cons_of_mem _ ha')
    refine ⟨b :: bs, ?_, .cons hQ hrest⟩
    rw [List.mapM_cons, hb, hbs]
    rfl

lemma forall₂_replicate {R : α → β → Prop} {x : α} {y : β} (h : R x y) (n : ℕ) :
    List.Forall₂ R (List.replicate n x) (List.replicate n y) := by
  induction n with
  | zero => exact .nil
  | succ n ih => exact .cons h ih

lemma forall₂_zip {R : α → β → Prop} {S : γ → δ → Prop} {xs : List α} {ys : List β}
    {xs' : List γ} {ys' : List δ} (h : List.Forall₂ R xs ys) (h' : List.Forall₂ S xs' ys') :
    List.Forall₂ (fun p q => R p.1 q.1 ∧ S p.2 q.2) (xs.zip xs') (ys.zip ys') := by
  induction h generalizing xs' ys' with
  | nil => exact .nil
  | cons hxy _ ih =>
    cases h' with
    | nil => exact .nil
    | cons hS hrest => exact .cons ⟨hxy, hS⟩ (ih hrest)

lemma forall₂_getElem? {R : Option α → Option β → Prop} {xs : Series α} {ys : Series β}
    (h : List.Forall₂ R xs ys) (hnone : R none none) (index : ℕ) :
    R xs[index]?.join ys[index]?.join := by
  induction h generalizing index with
  | nil => exact hnone
  | cons hxy _ ih =>
    cases index with
    | zero => exact hxy
    | succ index => exact ih index

lemma lag_forall₂ {R : Option α → Option β → Prop} {xs : Series α} {ys : Series β}
    (h : List.Forall₂ R xs ys) (hnone : R none none) (window : ℕ) :
    List.Forall₂ R (lag window xs) (lag window ys) := by
  unfold lag
  rw [h.length_eq, List.forall₂_map_left_iff, List.forall₂_map_right_iff, List.forall₂_same]
  intro index _
  split
  · exact hnone
  · exact forall₂_getElem? h hnone _

end Lists

variable {F : Type} [Numeric F]

/-! ### Standing for a number -/

/-- A Python number stands for a binary64 number; where it is an integer, it is one of `I`. -/
inductive Stands (I : ℤ → Prop) : Option (Item F) → Option F → Prop
  | missing : Stands I none none
  | float {x : F} (finite : isFinite x = true) : Stands I (some (.float x)) (some x)
  | int {n : ℤ} (finite : isFinite (ofInt n : F) = true) (member : I n) :
    Stands I (some (.int n)) (some (ofInt n))

variable {I J : ℤ → Prop}

lemma Stands.mono {item : Option (Item F)} {x : Option F} (h : Stands I item x)
    (hIJ : ∀ n, I n → J n) : Stands J item x := by
  cases h with
  | missing => exact .missing
  | float hfinite => exact .float hfinite
  | int hfinite hmember => exact .int hfinite (hIJ _ hmember)

lemma Stands.isFinite {item : Item F} {x : F} (h : Stands I (some item) (some x)) :
    item.isFinite = .ok true ∧ Numeric.isFinite x = true := by
  cases h with
  | float hfinite => exact ⟨by simp [Item.isFinite, hfinite, pure, Except.pure], hfinite⟩
  | int hfinite _ =>
    refine ⟨?_, hfinite⟩
    simp [Item.isFinite, hfinite, require, pure, Except.pure]

lemma Stands.toFloat {item : Item F} {x : F} (h : Stands I (some item) (some x)) :
    item.toFloat = x := by
  cases h <;> rfl

/-- On integers that binary64 represents, both numbers have the same value. -/
lemma Stands.value {item : Item F} {x : F} (h : Stands I (some item) (some x))
    (hI : ∀ n, I n → Representable F n) : item.value = toRat x := by
  cases h with
  | float _ => rfl
  | int _ hmember => exact (hI _ hmember).1.symm

lemma stands_map_toFloat {item : Option (Item F)} {x : Option F} (h : Stands I item x) :
    item.map Item.toFloat = x := by
  cases h <;> rfl

lemma stands_finite (x : F) : Stands I ((finite x).map .float) (finite x) := by
  unfold finite
  split
  · next hfinite => exact .float hfinite
  · exact .missing

lemma Representable.isFinite {n : ℤ} (h : Representable F n) :
    Numeric.isFinite (ofInt n : F) = true := by
  apply isFinite_ofInt
  have hone := one_lt_integerLimit
  have hlimit : integerLimit ≤ integerLimit * integerLimit := Nat.le_mul_of_pos_left _ (by omega)
  exact lt_of_lt_of_le h.2 (by exact_mod_cast hlimit)

/-- A difference or a sum of representable integers is finite. -/
lemma isFinite_of_abs_le_add {a b n : ℤ} (ha : Representable F a) (hb : Representable F b)
    (h : |n| ≤ |a| + |b|) : Numeric.isFinite (ofInt n : F) = true := by
  apply isFinite_ofInt
  have hone := one_lt_integerLimit
  have hlimit : 2 * integerLimit ≤ integerLimit * integerLimit := Nat.mul_le_mul_right _ hone
  have hsum : |a| + |b| < 2 * integerLimit := by
    have := ha.2
    have := hb.2
    omega
  exact lt_of_le_of_lt h (lt_of_lt_of_le hsum (by exact_mod_cast hlimit))

/-! ### Series of items -/

abbrev SeriesStands (I : ℤ → Prop) (items : Series (Item F)) (series : Series F) : Prop :=
  List.Forall₂ (Stands I) items series

lemma SeriesStands.map_toFloat {items : Series (Item F)} {series : Series F}
    (h : SeriesStands I items series) : items.map (Option.map Item.toFloat) = series := by
  induction h with
  | nil => rfl
  | cons hcell _ ih => rw [List.map_cons, stands_map_toFloat hcell, ih]

lemma seriesStands_iff {items : Series (Item F)} {series : Series F} :
    SeriesStands I items series ↔ items.map (Option.map Item.toFloat) = series
      ∧ ∀ item, some item ∈ items → Stands I (some item) (some item.toFloat) := by
  constructor
  · intro h
    refine ⟨h.map_toFloat, ?_⟩
    intro item hitem
    obtain ⟨index, hindex⟩ := List.getElem?_of_mem hitem
    have hcell := forall₂_getElem? h .missing index
    rw [hindex, Option.join_some] at hcell
    cases hvalue : series[index]?.join with
    | none =>
      rw [hvalue] at hcell
      cases hcell
    | some x =>
      rw [hvalue] at hcell
      rwa [hcell.toFloat]
  · rintro ⟨rfl, hitems⟩
    rw [SeriesStands, List.forall₂_map_right_iff, List.forall₂_same]
    intro item hitem
    cases item with
    | none => exact .missing
    | some item => exact hitems item hitem

lemma SeriesStands.finite {items : Series (Item F)} {series : Series F}
    (h : SeriesStands I items series) : ∀ x, some x ∈ series → isFinite x = true := by
  intro x hx
  rw [← h.map_toFloat] at hx
  obtain ⟨item, hitem, hvalue⟩ := List.mem_map.mp hx
  obtain ⟨item, rfl, rfl⟩ := Option.map_eq_some_iff.mp hvalue
  exact ((seriesStands_iff.mp h).2 item hitem).isFinite.2

/-- A series of finite floats stands for itself. -/
lemma seriesStands_floats {series : Series F} (h : ∀ x, some x ∈ series → isFinite x = true) :
    SeriesStands I (series.map (Option.map .float)) series := by
  rw [SeriesStands, List.forall₂_map_left_iff, List.forall₂_same]
  intro x hx
  cases x with
  | none => exact .missing
  | some x => exact .float (h x hx)

/-! ### Finite results -/

lemma float_isFinite (x : F) : (Item.float x).isFinite = .ok (isFinite x) := rfl

lemma float_finite (x : F) : (Item.float x).finite = .ok ((finite x).map Item.float) := by
  unfold Item.finite finite
  rw [float_isFinite, ok_bind]
  cases isFinite x <;> rfl

lemma float_finiteOrMissing (x : F) :
    (Item.float x).finiteOrMissing = .ok ((finite x).map Item.float) := by
  unfold Item.finiteOrMissing finite
  rw [float_isFinite, ok_bind]
  cases isFinite x <;> rfl

lemma int_isFinite {n : ℤ} (h : isFinite (ofInt n : F) = true) :
    (Item.int n : Item F).isFinite = .ok true := by
  simp [Item.isFinite, h, require, pure, Except.pure]

lemma int_finite {n : ℤ} (h : isFinite (ofInt n : F) = true) :
    (Item.int n : Item F).finite = .ok (some (.int n)) := by
  unfold Item.finite
  rw [int_isFinite h]
  rfl

lemma int_finiteOrMissing {n : ℤ} (h : isFinite (ofInt n : F) = true) :
    (Item.int n : Item F).finiteOrMissing = .ok (some (.float (ofInt n))) := by
  unfold Item.finiteOrMissing
  rw [int_isFinite h]
  rfl

/-! ### Temporal builtins -/

/-- The integers that a temporal builtin hands on. -/
def temporalIntegers (function : Temporal) (I : ℤ → Prop) (n : ℤ) : Prop :=
  match function with
  | .lag | .tsMin | .tsMax => I n
  | .delta => ∃ a b, I a ∧ I b ∧ n = a - b
  | _ => False

lemma deltaItem_stands (hI : ∀ n, I n → Representable F n) {current prior : Option (Item F)}
    {x y : Option F} (hcurrent : Stands I current x) (hprior : Stands I prior y) :
    ∃ item, deltaItem current prior = .ok item
      ∧ Stands (temporalIntegers .delta I) item (deltaCell x y) := by
  cases hcurrent with
  | missing => exact ⟨none, rfl, .missing⟩
  | @float x _ =>
    cases hprior with
    | missing => exact ⟨none, rfl, .missing⟩
    | @float y _ => exact ⟨_, float_finite (sub x y), stands_finite _⟩
    | @int b _ _ => exact ⟨_, float_finite (sub x (ofInt b)), stands_finite _⟩
  | @int a hfinite ha =>
    cases hprior with
    | missing => exact ⟨none, rfl, .missing⟩
    | @float y _ => exact ⟨_, float_finite (sub (ofInt a) y), stands_finite _⟩
    | @int b _ hb =>
      have hdifference : isFinite (ofInt (a - b) : F) = true :=
        isFinite_of_abs_le_add (hI a ha) (hI b hb) (abs_sub a b)
      refine ⟨_, int_finite hdifference, ?_⟩
      have hcell : deltaCell (some (ofInt a)) (some (ofInt b)) = some (ofInt (a - b) : F) := by
        have hsub := sub_ofRat (F := F) a b (hI a ha).1 (hI b hb).1
        change finite (sub (ofRat a) (ofRat b)) = _
        rw [hsub]
        exact finite_of_isFinite hdifference
      rw [hcell]
      exact .int hdifference ⟨a, b, ha, hb, rfl⟩

/-- True division of two numbers that stand for binary64 numbers. -/
lemma div_stands (hI : ∀ n, I n → Representable F n) {left right : Item F} {x y : F}
    (hleft : Stands I (some left) (some x)) (hright : Stands I (some right) (some y))
    (hzero : toRat y ≠ 0) : left.div right = div x y := by
  cases hleft with
  | float _ => cases hright <;> rfl
  | @int a _ ha =>
    cases hright with
    | float _ => rfl
    | @int b _ hb =>
      have hb0 : b ≠ 0 := by
        rintro rfl
        exact hzero ((hI 0 hb).1.trans Int.cast_zero)
      exact (div_ofRat a b (hI a ha).1 (hI b hb).1 hb0).symm

lemma pctChangeItem_stands (hI : ∀ n, I n → Representable F n) {current prior : Option (Item F)}
    {x y : Option F} (hcurrent : Stands I current x) (hprior : Stands I prior y) :
    ∃ item, pctChangeItem current prior = .ok item ∧ Stands J item (pctChangeCell x y) := by
  cases current with
  | none =>
    cases hcurrent
    exact ⟨none, rfl, .missing⟩
  | some current =>
    cases prior with
    | none =>
      cases hprior
      refine ⟨none, rfl, ?_⟩
      cases x <;> exact .missing
    | some prior =>
      obtain ⟨x, rfl⟩ : ∃ y, x = some y := by cases hcurrent <;> exact ⟨_, rfl⟩
      obtain ⟨y, rfl⟩ : ∃ z, y = some z := by cases hprior <;> exact ⟨_, rfl⟩
      have hvalue := hprior.value hI
      by_cases hzero : toRat y = 0
      · refine ⟨none, by simp [pctChangeItem, hvalue, hzero, pure, Except.pure], ?_⟩
        simp only [pctChangeCell, Option.bind_some, if_pos hzero]
        exact .missing
      · have hdiv := div_stands hI hcurrent hprior hzero
        refine ⟨(finite (sub (div x y) (ofInt 1))).map .float, ?_, ?_⟩
        · simp only [pctChangeItem, hvalue, if_neg hzero, hdiv]
          exact float_finite _
        · simp only [pctChangeCell, Option.bind_some, if_neg hzero]
          exact stands_finite _

/-- A rolling extreme of items is the item of the rolling extreme. -/
lemma rollingExtreme_stands (hI : ∀ n, I n → Representable F n) {items : Series (Item F)}
    {series : Series F} (h : SeriesStands I items series) (minimum : Bool) (window : ℕ) :
    SeriesStands I (rollingExtreme Item.value minimum window items)
      (rollingExtreme toRat minimum window series) := by
  obtain ⟨hseries, hitems⟩ := seriesStands_iff.mp h
  rw [rollingExtreme_eq_windowed, rollingExtreme_eq_windowed, seriesStands_iff]
  constructor
  · rw [← hseries]
    symm
    apply windowed_map
    intro values hvalues
    exact extreme_map fun item hitem => ((hitems item (hvalues item hitem)).value hI).symm
  · intro item hitem
    obtain ⟨values, hvalues, hextreme⟩ := mem_windowed hitem
    exact hitems item (hvalues item (mem_of_extreme hextreme))

lemma isFinite_of_mem_populationStd {w : ℕ} {series : Series ℤ} {x : F}
    (h : some x ∈ (populationStd w series : Series F)) : isFinite x = true := by
  rw [populationStd_eq_windowed] at h
  obtain ⟨values, _, hvalue⟩ := mem_windowed h
  exact isFinite_of_populationDeviation hvalue

/-- Every temporal builtin keeps a series that stands for binary64 numbers. -/
theorem evaluateTemporal_stands (sum : RollingSum F) (hI : ∀ n, I n → Representable F n)
    {items : Series (Item F)} {series : Series F} (h : SeriesStands I items series)
    (function : Temporal) (window : ℕ) :
    ∃ result, evaluateTemporal sum function window items = .ok result
      ∧ SeriesStands (temporalIntegers function I) result
        (temporalSeries sum function window series) := by
  have hlag := lag_forall₂ h .missing window
  have hbinary64 := h.map_toFloat
  cases function with
  | lag => exact ⟨_, rfl, hlag⟩
  | delta =>
    obtain ⟨result, hresult, hstands⟩ := mapM_forall₂
      (f := fun pair => deltaItem pair.1 pair.2) (g := fun pair => deltaCell pair.1 pair.2)
      (forall₂_zip h hlag) fun p q hpq => deltaItem_stands hI hpq.1 hpq.2
    refine ⟨result, hresult, ?_⟩
    rw [temporalSeries, ← List.map_uncurry_zip_eq_zipWith]
    exact hstands
  | pctChange =>
    obtain ⟨result, hresult, hstands⟩ := mapM_forall₂
      (f := fun pair => pctChangeItem pair.1 pair.2) (g := fun pair => pctChangeCell pair.1 pair.2)
      (forall₂_zip h hlag) fun p q hpq => pctChangeItem_stands hI hpq.1 hpq.2
    refine ⟨result, hresult, ?_⟩
    rw [temporalSeries, ← List.map_uncurry_zip_eq_zipWith]
    exact hstands
  | tsMean =>
    refine ⟨_, rfl, ?_⟩
    rw [hbinary64]
    exact seriesStands_floats fun x => isFinite_of_mem_rollingTotal
  | tsSum =>
    refine ⟨_, rfl, ?_⟩
    rw [hbinary64]
    exact seriesStands_floats fun x => isFinite_of_mem_rollingTotal
  | tsStd =>
    refine ⟨_, rfl, ?_⟩
    have hscaled : items.map (Option.map fun item => scaledBinary64 item.value)
        = series.map (Option.map fun value => scaledBinary64 (toRat value)) := by
      rw [← hbinary64, List.map_map]
      apply List.map_congr_left
      intro item hitem
      cases item with
      | none => rfl
      | some item =>
        have hvalue := ((seriesStands_iff.mp h).2 item hitem).value hI
        simp [hvalue]
    rw [hscaled]
    exact seriesStands_floats fun x => isFinite_of_mem_populationStd
  | tsMin => exact ⟨_, rfl, rollingExtreme_stands hI h true window⟩
  | tsMax => exact ⟨_, rfl, rollingExtreme_stands hI h false window⟩

/-! ### Pointwise builtins -/

/-- The integers that a pointwise builtin hands on. -/
def pointwiseIntegers (function : Pointwise) (I : ℤ → Prop) (n : ℤ) : Prop :=
  function = .abs ∧ ∃ a, I a ∧ n = |a|

lemma stands_abs (hI : ∀ n, I n → Representable F n) {item : Item F} {x : F}
    (h : Stands I (some item) (some x)) : ∃ result, item.abs.finite = .ok result
      ∧ Stands (pointwiseIntegers .abs I) result (finite (abs x)) := by
  cases h with
  | float _ => exact ⟨_, float_finite (abs x), stands_finite _⟩
  | @int n hfinite hn =>
    have habs : isFinite (ofInt |n| : F) = true :=
      isFinite_of_abs_le_add (hI n hn) (hI n hn) 
        (by rw [abs_abs]; exact le_add_of_nonneg_right (abs_nonneg n))
    refine ⟨_, int_finite habs, ?_⟩
    have hvalue : Numeric.abs (ofInt n) = (ofInt |n| : F) := abs_ofRat n
    rw [hvalue, finite_of_isFinite habs]
    exact .int habs ⟨rfl, n, hn, rfl⟩

lemma pointwiseItem_stands (hI : ∀ n, I n → Representable F n) (function : Pointwise)
    {item : Item F} {x : F} (h : Stands I (some item) (some x)) :
    ∃ result, pointwiseItem function item = .ok result
      ∧ Stands (pointwiseIntegers function I) result (pointwiseCell function x) := by
  have hvalue := h.value hI
  have hfloat := h.toFloat
  cases function with
  | abs => exact stands_abs hI h
  | log =>
    by_cases hpos : toRat x ≤ 0
    · refine ⟨none, by simp [pointwiseItem, hvalue, hpos, pure, Except.pure], ?_⟩
      simp only [pointwiseCell, if_pos hpos]
      exact .missing
    · refine ⟨(finite (log x)).map .float, ?_, ?_⟩
      · simp only [pointwiseItem, hvalue, hfloat, if_neg hpos]
        exact float_finite _
      · simp only [pointwiseCell, if_neg hpos]
        exact stands_finite _
  | sign =>
    refine ⟨_, rfl, ?_⟩
    rw [hvalue]
    apply Stands.float
    apply isFinite_ofInt_of_abs_le_one
    split_ifs <;> decide

lemma mapNumeric_stands (hI : ∀ n, I n → Representable F n) (function : Pointwise)
    {item : Option (Item F)} {x : Option F} (h : Stands I item x) :
    ∃ result, mapNumeric (pointwiseItem function) item = .ok result
      ∧ Stands (pointwiseIntegers function I) result (x.bind (pointwiseCell function)) := by
  cases item with
  | none =>
    cases h
    exact ⟨none, rfl, .missing⟩
  | some item =>
    obtain ⟨x, rfl⟩ : ∃ y, x = some y := by cases h <;> exact ⟨_, rfl⟩
    obtain ⟨result, hresult, hstands⟩ := pointwiseItem_stands hI function h
    refine ⟨result, ?_, hstands⟩
    simp only [mapNumeric, h.isFinite.1, ok_bind, if_true, hresult]

/-! ### Values -/

/-- A value of the row evaluator stands for a row of cells. Its integers are among `I` where it is
a series and among `S` where it is a scalar. -/
inductive RowStands (I S : ℤ → Prop) (length : ℕ) : PlanValue F → List F → Prop
  | series {items : Series (Item F)} {row : List F} (hlength : row.length = length)
    (stands : SeriesStands I items (row.map finite)) : RowStands I S length (.series items) row
  | scalar {item : Option (Item F)} {row : List F} {x : Option F} (stands : Stands S item x)
    (constant : row.map finite = List.replicate length x) :
    RowStands I S length (.scalar item) row

variable {S : ℤ → Prop} {length : ℕ} {value : PlanValue F} {row : List F}

lemma RowStands.length_eq (h : RowStands I S length value row) : row.length = length := by
  cases h with
  | series hlength _ => exact hlength
  | scalar _ hconstant => rw [← List.length_map (f := finite), hconstant, List.length_replicate]

lemma RowStands.mono {I' S' : ℤ → Prop} (h : RowStands I S length value row)
    (hI : ∀ n, I n → I' n) (hS : ∀ n, S n → S' n) : RowStands I' S' length value row := by
  cases h with
  | series hlength hstands => exact .series hlength (hstands.imp fun _ _ hcell => hcell.mono hI)
  | scalar hstands hconstant => exact .scalar (hstands.mono hS) hconstant

/-- `_broadcast` gives a series that stands for the row. -/
lemma RowStands.broadcast (h : RowStands I S length value row) :
    ∃ items, value.broadcast length = .ok items ∧ SeriesStands I items (row.map finite) := by
  cases h with
  | @series items _ hlength hstands =>
    have hitems : items.length = length := by
      rw [hstands.length_eq, List.length_map, hlength]
    exact ⟨items, by simp [PlanValue.broadcast, hitems, require, pure, Except.pure], hstands⟩
  | @scalar item _ x hstands hconstant =>
    refine ⟨_, rfl, ?_⟩
    rw [hconstant]
    apply forall₂_replicate
    cases hstands with
    | missing => exact .missing
    | float hfinite => exact .float hfinite
    | int hfinite _ => exact .float hfinite

lemma cells_map_finite {series : Series F} (h : ∀ x, some x ∈ series → isFinite x = true) :
    (cells series).map finite = series := by
  unfold cells
  rw [List.map_map]
  conv_rhs => rw [← List.map_id series]
  apply List.map_congr_left
  intro x hx
  cases x with
  | none => exact finite_nan
  | some x => exact finite_of_isFinite (h x hx)

/-- Series that stand for finite cells are a value of the row. -/
lemma RowStands.of_series {items : Series (Item F)} {series : Series F}
    (h : SeriesStands I items series) (hlength : series.length = length) :
    RowStands I S length (.series items) (cells series) := by
  refine .series ?_ ?_
  · rw [cells_length, hlength]
  · rwa [cells_map_finite h.finite]

/-- A pointwise builtin keeps a row; on a scalar it works with floats. -/
lemma evaluatePointwise_stands (hI : ∀ n, I n → Representable F n) (function : Pointwise)
    (h : RowStands I S length value row) :
    ∃ result, evaluatePointwise function value = .ok result
      ∧ RowStands (pointwiseIntegers function I) (fun _ => False) length result
        (cells (pointwiseSeries function (row.map finite))) := by
  cases h with
  | series hlength hstands =>
    obtain ⟨result, hresult, hresultStands⟩ := mapM_forall₂ hstands fun item x hcell =>
      mapNumeric_stands hI function hcell
    refine ⟨.series result, ?_, .of_series hresultStands ?_⟩
    · simp only [evaluatePointwise, hresult, ok_bind]
      rfl
    · rw [pointwiseSeries, List.length_map, List.length_map, hlength]
  | @scalar item _ x hstands hconstant =>
    have hfloat : Stands (fun _ => False) (x.map Item.float) x := by
      cases hstands with
      | missing => exact .missing
      | float hfinite => exact .float hfinite
      | int hfinite _ => exact .float hfinite
    obtain ⟨result, hresult, hresultStands⟩ :=
      mapNumeric_stands (fun _ hfalse => hfalse.elim) function hfloat
    refine ⟨.scalar result, ?_, .scalar (hresultStands.mono ?_) ?_⟩
    · cases hstands with
      | missing =>
        cases hresult
        rfl
      | float hfinite =>
        simp only [evaluatePointwise, float_finiteOrMissing, finite_of_isFinite hfinite, ok_bind,
          hresult]
        rfl
      | int hfinite _ =>
        simp only [evaluatePointwise, int_finiteOrMissing hfinite, ok_bind]
        rw [Option.map_some] at hresult
        rw [hresult]
        rfl
    · rintro n ⟨_, _, hfalse, _⟩
      exact hfalse
    · rw [hconstant, pointwiseSeries, List.map_replicate]
      apply cells_map_finite
      intro y hy
      rw [(List.eq_of_mem_replicate hy).symm] at hresultStands
      cases hresultStands with
      | float hfinite => exact hfinite
      | int hfinite _ => exact hfinite

/-- Cleaning a series of finite numbers leaves it as it is. -/
lemma seriesWindow_stands {items : Series (Item F)} {series : Series F}
    (h : SeriesStands I items series) (window : ℕ) :
    seriesWindow (.series items) (.scalar (some (.int window))) = .ok (items, window) := by
  have hcleaned : items.mapM (mapNumeric fun item => return some item) = .ok (items.map id) := by
    apply mapM_ok
    intro item hitem
    cases item with
    | none => rfl
    | some item =>
      simp only [mapNumeric, ((seriesStands_iff.mp h).2 item hitem).isFinite.1, ok_bind, if_true]
      rfl
  rw [List.map_id] at hcleaned
  simp only [seriesWindow, hcleaned, ok_bind]
  rfl

/-- A temporal builtin keeps a series. -/
lemma evaluator_temporal_stands (sum : RollingSum F) (hI : ∀ n, I n → Representable F n)
    {items : Series (Item F)} {series : Series F} (h : SeriesStands I items series)
    (function : Temporal) (window : ℕ) :
    ∃ result, (Builtin.temporal function).evaluator sum
        [.series items, .scalar (some (.int window))] = .ok (.series result)
      ∧ SeriesStands (temporalIntegers function I) result
        (temporalSeries sum function window series) := by
  obtain ⟨result, hresult, hstands⟩ := evaluateTemporal_stands sum hI h function window
  refine ⟨result, ?_, hstands⟩
  simp only [Builtin.evaluator, seriesWindow_stands h, ok_bind, hresult]
  rfl

lemma finite_columnarPctChangeCell (current prior : F) :
    finite (columnarPctChangeCell current prior)
      = pctChangeCell (finite current) (finite prior) := by
  unfold columnarPctChangeCell pctChangeCell
  cases hcurrent : isFinite current with
  | false => simp [finite, hcurrent, isFinite_nan]
  | true =>
    cases hprior : isFinite prior with
    | false => simp [finite, hcurrent, hprior, isFinite_nan]
    | true =>
      simp only [finite_of_isFinite hcurrent, finite_of_isFinite hprior, Option.bind_some,
        true_and]
      by_cases hzero : toRat prior = 0
      · rw [if_neg (not_not.mpr hzero), if_pos hzero, finite_nan]
      · rw [if_pos hzero, if_neg hzero]

lemma columnarPctChange_getElem {window index : ℕ} {row : List F} (h : index < row.length)
    (h' : index < (columnarPctChange window row).length) :
    (columnarPctChange window row)[index] = if index < window then nan
      else columnarPctChangeCell row[index] row[index - window] := by
  unfold columnarPctChange at h' ⊢
  by_cases hshort : row.length ≤ window
  · simp only [if_pos hshort, List.getElem_replicate]
    rw [if_pos (by omega)]
  · simp only [if_neg hshort]
    by_cases hlt : index < window
    · rw [if_pos hlt, List.getElem_append_left (by rwa [List.length_replicate]),
        List.getElem_replicate]
    · rw [if_neg hlt, List.getElem_append_right (by rw [List.length_replicate]; omega),
        List.getElem_zipWith, List.getElem_drop, List.getElem_take]
      simp only [List.length_replicate, Nat.add_sub_cancel' (Nat.le_of_not_lt hlt)]

/-- The columnar change has the cells of the builtin. -/
lemma columnarPctChange_finite (window : ℕ) (row : List F) :
    (columnarPctChange window row).map finite
      = List.zipWith pctChangeCell (row.map finite) (lag window (row.map finite)) := by
  have hmissing : ∀ x : Option F, pctChangeCell x none = none := by
    intro x
    cases x <;> rfl
  apply List.ext_getElem
  · rw [List.length_map, columnarPctChange_length, List.length_zipWith, lag_length,
      List.length_map, Nat.min_self]
  · intro index hleft hright
    rw [List.length_map, columnarPctChange_length] at hleft
    have hlength : index < (lag window (row.map finite)).length := by simpa [lag] using hleft
    have hlag : (lag window (row.map finite))[index]
        = if index < window then none else (row.map finite)[index - window]?.join := by
      simp [lag]
    rw [List.getElem_map, List.getElem_zipWith, hlag, columnarPctChange_getElem hleft]
    by_cases hlt : index < window
    · rw [if_pos hlt, if_pos hlt, hmissing, finite_nan]
    · have hprior : (row.map finite)[index - window]?.join = finite row[index - window] := by
        rw [List.getElem?_map, List.getElem?_eq_getElem (by omega)]
        rfl
      rw [if_neg hlt, if_neg hlt, hprior, List.getElem_map, finite_columnarPctChangeCell]

/-- The cells of a temporal builtin on a row. -/
lemma temporalRow_finite (sum : RollingSum F) (function : Temporal) (window : ℕ) (row : List F) :
    (temporalRow sum function window row).map finite
      = temporalSeries sum function window (row.map finite) := by
  have hrow : ∀ x, some x ∈ row.map finite → isFinite x = true := by
    intro x hx
    obtain ⟨y, _, hy⟩ := List.mem_map.mp hx
    exact isFinite_of_finite hy
  by_cases hpct : function = .pctChange
  · subst hpct
    simp only [temporalRow, if_true]
    exact columnarPctChange_finite window row
  · obtain ⟨_, _, hstands⟩ := evaluateTemporal_stands sum (I := fun _ => False)
      (fun _ hfalse => hfalse.elim) (seriesStands_floats hrow) function window
    simp only [temporalRow, if_neg hpct]
    exact cells_map_finite hstands.finite

end ThesisTrace.Alpha
