import Mathlib.Data.Int.ConditionallyCompleteOrder
import Mathlib.Data.Int.Log
import Mathlib.Data.Rat.Floor
import Mathlib.Tactic.Linarith
import Mathlib.Tactic.Positivity

/-!
# Decimal contexts

Rounding to a number of significant decimal digits, ties to even, as a function on rationals.
Exponents are unbounded: a context that traps overflow and never underflows computes the same.
-/

namespace DecimalContext

/-! ### Nearest integers -/

/-- The nearest integer, the even one of two. -/
def roundHalfEven (x : ℚ) : ℤ :=
  if x - ⌊x⌋ < 1 / 2 then ⌊x⌋
  else if 1 / 2 < x - ⌊x⌋ then ⌊x⌋ + 1
  else if ⌊x⌋ % 2 = 0 then ⌊x⌋
  else ⌊x⌋ + 1

@[simp] lemma roundHalfEven_intCast (n : ℤ) : roundHalfEven n = n := by
  unfold roundHalfEven
  rw [Int.floor_intCast, sub_self, if_pos (by norm_num)]

lemma roundHalfEven_bounds (x : ℚ) : ⌊x⌋ ≤ roundHalfEven x ∧ roundHalfEven x ≤ ⌊x⌋ + 1 := by
  unfold roundHalfEven
  split
  · omega
  · split
    · omega
    · split <;> omega

lemma roundHalfEven_mono : Monotone roundHalfEven := by
  intro x y hxy
  rcases (Int.floor_mono hxy).lt_or_eq with hlt | heq
  · have hx := (roundHalfEven_bounds x).2
    have hy := (roundHalfEven_bounds y).1
    omega
  · have hfrac : x - ⌊x⌋ ≤ y - ⌊x⌋ := by linarith
    unfold roundHalfEven
    rw [← heq]
    split_ifs <;> first | omega | linarith

lemma roundHalfEven_neg (x : ℚ) : roundHalfEven (-x) = -roundHalfEven x := by
  by_cases hint : x = ⌊x⌋
  · have hx : roundHalfEven x = ⌊x⌋ := by
      conv_lhs => rw [hint]
      exact roundHalfEven_intCast _
    have hneg : -x = ((-⌊x⌋ : ℤ) : ℚ) := by
      rw [Int.cast_neg, ← hint]
    rw [hx, hneg, roundHalfEven_intCast]
  · -- a fraction `r` of `x` is the fraction `1 - r` of `-x`, one floor lower
    have hfloor : ⌊-x⌋ = -⌊x⌋ - 1 := by
      rw [Int.floor_eq_iff]
      have hle := Int.floor_le x
      have hlt := Int.lt_floor_add_one x
      have hstrict : (⌊x⌋ : ℚ) < x := lt_of_le_of_ne hle (Ne.symm hint)
      push_cast
      constructor <;> linarith
    unfold roundHalfEven
    rw [hfloor]
    push_cast
    split_ifs <;> first | omega | linarith

/-! ### Significant digits -/

/-- The exponent of the last of `p` significant digits of `x`. -/
def quantum (p : ℕ) (x : ℚ) : ℤ :=
  Int.log 10 |x| - (p - 1)

/-- The nearest number with `p` significant digits. -/
def roundTo (p : ℕ) (x : ℚ) : ℚ :=
  roundHalfEven (x / 10 ^ quantum p x) * 10 ^ quantum p x

lemma pow_quantum_pos (p : ℕ) (x : ℚ) : (0 : ℚ) < 10 ^ quantum p x :=
  zpow_pos (by norm_num) _

@[simp] lemma roundTo_zero (p : ℕ) : roundTo p 0 = 0 := by
  unfold roundTo
  rw [zero_div, ← Int.cast_zero, roundHalfEven_intCast, Int.cast_zero, zero_mul]

lemma roundTo_nonneg {p : ℕ} {x : ℚ} (h : 0 ≤ x) : 0 ≤ roundTo p x := by
  have hscaled : ((0 : ℤ) : ℚ) ≤ x / 10 ^ quantum p x := by
    rw [Int.cast_zero]
    exact div_nonneg h (pow_quantum_pos p x).le
  have hround := roundHalfEven_mono hscaled
  rw [roundHalfEven_intCast] at hround
  exact mul_nonneg (by exact_mod_cast hround) (pow_quantum_pos p x).le

/-- Numbers with at most `p` significant digits. -/
def Representable (p : ℕ) (x : ℚ) : Prop :=
  ∃ m k : ℤ, |m| < 10 ^ p ∧ x = m * 10 ^ k

lemma Representable.mono {p p' : ℕ} {x : ℚ} (hle : p ≤ p') (h : Representable p x) :
    Representable p' x := by
  obtain ⟨m, k, hm, hx⟩ := h
  exact ⟨m, k, hm.trans_le (pow_le_pow_right₀ (by norm_num) hle), hx⟩

/-- A representable number is an integer multiple of its quantum. -/
lemma quantum_le {p : ℕ} {m k : ℤ} (hm : |m| < 10 ^ p) (hne : m ≠ 0) :
    quantum p (m * 10 ^ k) ≤ k := by
  have hten : (0 : ℚ) < 10 ^ k := zpow_pos (by norm_num) k
  have hpos : (0 : ℚ) < |(m : ℚ) * 10 ^ k| := by
    have hmne : (m : ℚ) ≠ 0 := by exact_mod_cast hne
    exact abs_pos.mpr (mul_ne_zero hmne hten.ne')
  have hmQ : |(m : ℚ)| < 10 ^ p := by exact_mod_cast hm
  have hlt : |(m : ℚ) * 10 ^ k| < (10 : ℕ) ^ ((p : ℤ) + k) := by
    rw [abs_mul, abs_of_pos hten, Nat.cast_ofNat, zpow_add₀ (by norm_num), zpow_natCast]
    exact mul_lt_mul_of_pos_right hmQ hten
  have hlog := (Int.lt_zpow_iff_log_lt (by norm_num) hpos).mp hlt
  unfold quantum
  omega

/-- Rounding keeps what is already representable. -/
theorem roundTo_of_representable {p : ℕ} {x : ℚ} (h : Representable p x) : roundTo p x = x := by
  obtain ⟨m, k, hm, rfl⟩ := h
  by_cases hne : m = 0
  · rw [hne]
    simp
  · obtain ⟨n, hn⟩ := Int.le.dest (quantum_le (k := k) hm hne)
    have hq := pow_quantum_pos p ((m : ℚ) * 10 ^ k)
    have hten : (10 : ℚ) ^ k = 10 ^ n * 10 ^ quantum p (m * 10 ^ k) := by
      rw [← zpow_natCast, ← zpow_add₀ (by norm_num), add_comm, hn]
    have hscaled : (m : ℚ) * 10 ^ k / 10 ^ quantum p (m * 10 ^ k) = ((m * 10 ^ n : ℤ) : ℚ) := by
      rw [div_eq_iff hq.ne', Int.cast_mul, Int.cast_pow, Int.cast_ofNat, mul_assoc, ← hten]
    unfold roundTo
    rw [hscaled, roundHalfEven_intCast, ← hscaled]
    exact div_mul_cancel₀ _ hq.ne'

/-- The scaled value of a positive number has exactly `p` digits before its point. -/
lemma scaled_bounds {p : ℕ} {x : ℚ} (hp : 1 ≤ p) (hx : 0 < x) :
    ((10 ^ (p - 1) : ℤ) : ℚ) ≤ x / 10 ^ quantum p x
      ∧ x / 10 ^ quantum p x < ((10 ^ p : ℤ) : ℚ) := by
  have hlow := Int.zpow_log_le_self (b := 10) (by norm_num) hx
  have hhigh := Int.lt_zpow_succ_log_self (b := 10) (by norm_num) x
  have hq := pow_quantum_pos p x
  have habs : |x| = x := abs_of_pos hx
  rw [le_div_iff₀ hq, div_lt_iff₀ hq]
  have hlowExp : (10 : ℚ) ^ (p - 1) * 10 ^ quantum p x = 10 ^ Int.log 10 x := by
    rw [← zpow_natCast, ← zpow_add₀ (by norm_num)]
    congr 1
    unfold quantum
    rw [habs]
    omega
  have hhighExp : (10 : ℚ) ^ p * 10 ^ quantum p x = 10 ^ (Int.log 10 x + 1) := by
    rw [← zpow_natCast, ← zpow_add₀ (by norm_num)]
    congr 1
    unfold quantum
    rw [habs]
    omega
  push_cast at hlow hhigh ⊢
  rw [hlowExp, hhighExp]
  exact ⟨hlow, hhigh⟩

/-- The rounded digits of a positive number. -/
lemma digits_bounds {p : ℕ} {x : ℚ} (hp : 1 ≤ p) (hx : 0 < x) :
    10 ^ (p - 1) ≤ roundHalfEven (x / 10 ^ quantum p x)
      ∧ roundHalfEven (x / 10 ^ quantum p x) ≤ 10 ^ p := by
  obtain ⟨hlow, hhigh⟩ := scaled_bounds hp hx
  have hlow' := roundHalfEven_mono hlow
  have hhigh' := roundHalfEven_mono hhigh.le
  rw [roundHalfEven_intCast] at hlow' hhigh'
  exact ⟨hlow', hhigh'⟩

lemma roundTo_mono_of_pos {p : ℕ} {x y : ℚ} (hp : 1 ≤ p) (hx : 0 < x) (hxy : x ≤ y) :
    roundTo p x ≤ roundTo p y := by
  have hy : 0 < y := hx.trans_le hxy
  have hlog := Int.log_mono_right (b := 10) hx hxy
  have hxabs : |x| = x := abs_of_pos hx
  have hyabs : |y| = y := abs_of_pos hy
  have hquantum : quantum p x ≤ quantum p y := by
    unfold quantum
    rw [hxabs, hyabs]
    omega
  rcases hquantum.lt_or_eq with hlt | heq
  · -- the values are separated by a power of ten
    have hxDigits : (roundHalfEven (x / 10 ^ quantum p x) : ℚ) ≤ 10 ^ p := by
      exact_mod_cast (digits_bounds hp hx).2
    have hyDigits : (10 : ℚ) ^ (p - 1) ≤ roundHalfEven (y / 10 ^ quantum p y) := by
      exact_mod_cast (digits_bounds hp hy).1
    calc roundTo p x ≤ 10 ^ p * 10 ^ quantum p x :=
          mul_le_mul_of_nonneg_right hxDigits (pow_quantum_pos p x).le
      _ = 10 ^ ((p : ℤ) + quantum p x) := by
          rw [zpow_add₀ (by norm_num), zpow_natCast]
      _ ≤ 10 ^ (((p - 1 : ℕ) : ℤ) + quantum p y) :=
          zpow_le_zpow_right₀ (by norm_num) (by omega)
      _ = 10 ^ (p - 1) * 10 ^ quantum p y := by
          rw [zpow_add₀ (by norm_num), zpow_natCast]
      _ ≤ roundTo p y := mul_le_mul_of_nonneg_right hyDigits (pow_quantum_pos p y).le
  · unfold roundTo
    rw [← heq]
    have hq := pow_quantum_pos p x
    have hround := roundHalfEven_mono (div_le_div_of_nonneg_right hxy hq.le)
    exact mul_le_mul_of_nonneg_right (by exact_mod_cast hround) hq.le

lemma roundTo_neg (p : ℕ) (x : ℚ) : roundTo p (-x) = -roundTo p x := by
  have hquantum : quantum p (-x) = quantum p x := by
    unfold quantum
    rw [abs_neg]
  unfold roundTo
  rw [hquantum, neg_div, roundHalfEven_neg, Int.cast_neg, neg_mul]

theorem roundTo_mono {p : ℕ} (hp : 1 ≤ p) : Monotone (roundTo p) := by
  intro x y hxy
  rcases lt_trichotomy x 0 with hneg | rfl | hpos
  · rcases lt_or_ge y 0 with hyneg | hynonneg
    · have hmono := roundTo_mono_of_pos hp (neg_pos.mpr hyneg) (neg_le_neg hxy)
      rw [roundTo_neg, roundTo_neg] at hmono
      exact neg_le_neg_iff.mp hmono
    · have hx : 0 ≤ roundTo p (-x) := roundTo_nonneg (neg_nonneg.mpr hneg.le)
      rw [roundTo_neg] at hx
      exact (neg_nonneg.mp hx).trans (roundTo_nonneg hynonneg)
  · rw [roundTo_zero]
    exact roundTo_nonneg hxy
  · exact roundTo_mono_of_pos hp hpos hxy

lemma Representable.neg {p : ℕ} {x : ℚ} (h : Representable p x) : Representable p (-x) := by
  obtain ⟨m, k, hm, rfl⟩ := h
  refine ⟨-m, k, by rwa [abs_neg], ?_⟩
  rw [Int.cast_neg, neg_mul]

lemma representable_roundTo_of_pos {p : ℕ} {x : ℚ} (hp : 1 ≤ p) (hx : 0 < x) :
    Representable p (roundTo p x) := by
  obtain ⟨hlow, hhigh⟩ := digits_bounds hp hx
  have hten : (0 : ℤ) < 10 ^ (p - 1) := by positivity
  rcases hhigh.lt_or_eq with hlt | heq
  · refine ⟨_, quantum p x, ?_, rfl⟩
    rwa [abs_of_pos (hten.trans_le hlow)]
  · -- rounded up to a power of ten, which has one significant digit
    refine ⟨1, p + quantum p x, ?_, ?_⟩
    · rw [abs_one]
      exact one_lt_pow₀ (by norm_num) (by omega)
    · unfold roundTo
      rw [heq, Int.cast_pow, Int.cast_ofNat, zpow_add₀ (by norm_num), zpow_natCast, Int.cast_one,
        one_mul]

theorem representable_roundTo {p : ℕ} (hp : 1 ≤ p) (x : ℚ) : Representable p (roundTo p x) := by
  rcases lt_trichotomy x 0 with hneg | rfl | hpos
  · have h := representable_roundTo_of_pos hp (neg_pos.mpr hneg)
    rw [roundTo_neg] at h
    simpa only [neg_neg] using h.neg
  · rw [roundTo_zero]
    exact ⟨0, 0, by simp, by simp⟩
  · exact representable_roundTo_of_pos hp hpos

/-- A context with at least as many digits keeps what a narrower one rounded. -/
theorem roundTo_roundTo {p p' : ℕ} (hp : 1 ≤ p) (hle : p ≤ p') (x : ℚ) :
    roundTo p' (roundTo p x) = roundTo p x :=
  roundTo_of_representable ((representable_roundTo hp x).mono hle)

/-- Rounding moves a number by less than one unit of its last digit. -/
lemma roundTo_le_add {p : ℕ} {x : ℚ} (hp : 1 ≤ p) (hx : 0 ≤ x) :
    roundTo p x ≤ x + x / 10 ^ (p - 1) := by
  rcases hx.eq_or_lt with rfl | hpos
  · simp
  · have hq := pow_quantum_pos p x
    have hunit : (10 : ℚ) ^ quantum p x ≤ x / 10 ^ (p - 1) := by
      have hscaled := (scaled_bounds hp hpos).1
      rw [le_div_iff₀ hq] at hscaled
      rw [le_div_iff₀ (by positivity), mul_comm]
      exact_mod_cast hscaled
    have hdigits : ((roundHalfEven (x / 10 ^ quantum p x) : ℤ) : ℚ) ≤ x / 10 ^ quantum p x + 1 := by
      have hle : ((roundHalfEven (x / 10 ^ quantum p x) : ℤ) : ℚ)
          ≤ ((⌊x / 10 ^ quantum p x⌋ + 1 : ℤ) : ℚ) := by
        exact_mod_cast (roundHalfEven_bounds _).2
      push_cast at hle
      exact hle.trans (by linarith [Int.floor_le (x / 10 ^ quantum p x)])
    calc roundTo p x ≤ (x / 10 ^ quantum p x + 1) * 10 ^ quantum p x :=
          mul_le_mul_of_nonneg_right hdigits hq.le
      _ = x + 10 ^ quantum p x := by rw [add_mul, div_mul_cancel₀ _ hq.ne', one_mul]
      _ ≤ x + x / 10 ^ (p - 1) := by linarith

lemma sub_le_roundTo {p : ℕ} {x : ℚ} (hp : 1 ≤ p) (hx : 0 ≤ x) :
    x - x / 10 ^ (p - 1) ≤ roundTo p x := by
  rcases hx.eq_or_lt with rfl | hpos
  · simp
  · have hq := pow_quantum_pos p x
    have hunit : (10 : ℚ) ^ quantum p x ≤ x / 10 ^ (p - 1) := by
      have hscaled := (scaled_bounds hp hpos).1
      rw [le_div_iff₀ hq] at hscaled
      rw [le_div_iff₀ (by positivity), mul_comm]
      exact_mod_cast hscaled
    have hdigits : x / 10 ^ quantum p x - 1 ≤ ((roundHalfEven (x / 10 ^ quantum p x) : ℤ) : ℚ) := by
      have hle : ((⌊x / 10 ^ quantum p x⌋ : ℤ) : ℚ)
          ≤ ((roundHalfEven (x / 10 ^ quantum p x) : ℤ) : ℚ) := by
        exact_mod_cast (roundHalfEven_bounds _).1
      linarith [Int.lt_floor_add_one (x / 10 ^ quantum p x)]
    calc x - x / 10 ^ (p - 1) ≤ x - 10 ^ quantum p x := by linarith
      _ = (x / 10 ^ quantum p x - 1) * 10 ^ quantum p x := by
          rw [sub_mul, div_mul_cancel₀ _ hq.ne', one_mul]
      _ ≤ roundTo p x := mul_le_mul_of_nonneg_right hdigits hq.le

lemma roundTo_pos {p : ℕ} {x : ℚ} (hp : 1 ≤ p) (hx : 0 < x) : 0 < roundTo p x := by
  have hten : (0 : ℤ) < 10 ^ (p - 1) := by positivity
  have hdigits : 0 < roundHalfEven (x / 10 ^ quantum p x) :=
    hten.trans_le (digits_bounds hp hx).1
  exact mul_pos (by exact_mod_cast hdigits) (pow_quantum_pos p x)

/-! ### Midpoints -/

lemma lt_roundHalfEven_iff {n : ℤ} (hn : n % 2 = 0) {x : ℚ} :
    n < roundHalfEven x ↔ (n : ℚ) + 1 / 2 < x := by
  constructor
  · intro h
    by_contra hle
    have hmid : roundHalfEven ((n : ℚ) + 1 / 2) = n := by
      have hfloor : ⌊(n : ℚ) + 1 / 2⌋ = n := by
        rw [Int.floor_eq_iff]
        constructor <;> linarith
      unfold roundHalfEven
      rw [hfloor, if_neg (by linarith), if_neg (by linarith), if_pos hn]
    have hmono := roundHalfEven_mono (not_lt.mp hle)
    omega
  · intro h
    have hfloor : n ≤ ⌊x⌋ := Int.le_floor.mpr (by linarith)
    rcases hfloor.lt_or_eq with hlt | heq
    · exact hlt.trans_le (roundHalfEven_bounds x).1
    · unfold roundHalfEven
      rw [← heq, if_neg (by linarith), if_pos (by linarith)]
      omega

lemma roundHalfEven_lt_iff {n : ℤ} (hn : n % 2 = 0) {x : ℚ} :
    roundHalfEven x < n ↔ x < (n : ℚ) - 1 / 2 := by
  have h := lt_roundHalfEven_iff (n := -n) (by omega) (x := -x)
  rw [roundHalfEven_neg] at h
  push_cast at h
  constructor
  · intro hlt
    linarith [h.mp (by omega)]
  · intro hlt
    have hneg := h.mpr (by linarith)
    omega

/-- The last digit of the numbers between two powers of ten. -/
lemma roundTo_of_decade {p : ℕ} {x : ℚ} {k : ℤ} (hle : (10 : ℚ) ^ k ≤ x)
    (hlt : x < (10 : ℚ) ^ (k + 1)) :
    roundTo p x = roundHalfEven (x / 10 ^ (k - (p - 1))) * 10 ^ (k - (p - 1)) := by
  have hpos : 0 < x := (zpow_pos (by norm_num) k).trans_le hle
  have hlog : Int.log 10 x = k := by
    have hge := (Int.zpow_le_iff_le_log (b := 10) (by norm_num) hpos).mp (by exact_mod_cast hle)
    have hlt' := (Int.lt_zpow_iff_log_lt (b := 10) (by norm_num) hpos).mp (by exact_mod_cast hlt)
    omega
  unfold roundTo quantum
  rw [abs_of_pos hpos, hlog]

section Midpoints

variable {p : ℕ} {x unit : ℚ} {n k : ℤ}

/-- A number of a decade rounds above an even multiple of its last digit just when it lies above
the next midpoint. -/
lemma lt_roundTo_iff (hle : (10 : ℚ) ^ k ≤ x) (hlt : x < (10 : ℚ) ^ (k + 1))
    (hunit : unit = (10 : ℚ) ^ (k - (p - 1))) (hn : n % 2 = 0) :
    n * unit < roundTo p x ↔ (n + 1 / 2) * unit < x := by
  have hpos : 0 < unit := hunit ▸ zpow_pos (by norm_num) _
  rw [roundTo_of_decade hle hlt, ← hunit, mul_lt_mul_iff_left₀ hpos, Int.cast_lt,
    lt_roundHalfEven_iff hn, lt_div_iff₀ hpos]

lemma roundTo_lt_iff (hle : (10 : ℚ) ^ k ≤ x) (hlt : x < (10 : ℚ) ^ (k + 1))
    (hunit : unit = (10 : ℚ) ^ (k - (p - 1))) (hn : n % 2 = 0) :
    roundTo p x < n * unit ↔ x < (n - 1 / 2) * unit := by
  have hpos : 0 < unit := hunit ▸ zpow_pos (by norm_num) _
  rw [roundTo_of_decade hle hlt, ← hunit, mul_lt_mul_iff_left₀ hpos, Int.cast_lt,
    roundHalfEven_lt_iff hn, div_lt_iff₀ hpos]

end Midpoints

/-! ### Square roots -/

/-- The nearest number with `p` significant digits to the root of `x`. Of `x`, scaled by an even
power of ten, the integer root has exactly `p` digits. -/
def sqrtTo (p : ℕ) (x : ℚ) : ℚ :=
  let exponent := Int.log 10 x / 2 + 1 - p
  let scaled := x / 10 ^ (2 * exponent)
  let root := Nat.sqrt ⌊scaled⌋.toNat
  let midpoint : ℚ := (root + 1 / 2) ^ 2
  (if midpoint < scaled ∨ midpoint = scaled ∧ root % 2 = 1 then root + 1 else root : ℕ)
    * 10 ^ exponent

lemma sqrtTo_nonneg (p : ℕ) (x : ℚ) : 0 ≤ sqrtTo p x :=
  mul_nonneg (Nat.cast_nonneg _) (zpow_pos (by norm_num) _).le

end DecimalContext
