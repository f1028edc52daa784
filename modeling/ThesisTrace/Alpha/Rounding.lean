import ThesisTrace.Library.DecimalContext
import ThesisTrace.Alpha.Numeric

/-!
# Numbers with 53 significant bits

Binary64 without its exponent range, on which the evaluators can be run. A number that is not finite
is `none`; logarithms are left out.
-/

namespace ThesisTrace.Alpha
open DecimalContext

def Binary53 := Option ℚ
  deriving DecidableEq

namespace Binary53

/-- The exponent of the last of 53 significant bits. -/
def lastBit (q : ℚ) : ℤ := Int.log 2 |q| - 52

/-- The nearest number with 53 significant bits, ties to even. -/
def round (q : ℚ) : ℚ := roundHalfEven (q / 2 ^ lastBit q) * 2 ^ lastBit q

lemma round_zero : round 0 = 0 := by
  simp [round, lastBit, roundHalfEven]

lemma round_neg (q : ℚ) : round (-q) = -round q := by
  unfold round lastBit
  rw [abs_neg, neg_div, roundHalfEven_neg]
  push_cast
  ring

/-- A positive number is at least as large as its last bit. -/
lemma one_le_div_lastBit {q : ℚ} (h : 0 < q) : 1 ≤ q / 2 ^ lastBit q := by
  have hbit : (0 : ℚ) < 2 ^ lastBit q := zpow_pos (by norm_num) _
  have hlog : (2 : ℚ) ^ Int.log 2 |q| ≤ |q| := by
    have hself := Int.zpow_log_le_self (b := 2) (R := ℚ) (by norm_num) (abs_pos.mpr h.ne')
    exact_mod_cast hself
  rw [le_div_iff₀ hbit, one_mul]
  calc (2 : ℚ) ^ lastBit q ≤ 2 ^ Int.log 2 |q| :=
        zpow_le_zpow_right₀ (by norm_num) (by unfold lastBit; omega)
    _ ≤ q := by rwa [abs_of_pos h] at hlog ⊢

lemma round_pos {q : ℚ} (h : 0 < q) : 0 < round q := by
  have hbit : (0 : ℚ) < 2 ^ lastBit q := zpow_pos (by norm_num) _
  have hfloor : 1 ≤ ⌊q / 2 ^ lastBit q⌋ :=
    Int.le_floor.mpr (by exact_mod_cast one_le_div_lastBit h)
  have hrounded := (roundHalfEven_bounds (q / 2 ^ lastBit q)).1
  have hpos : 0 < roundHalfEven (q / 2 ^ lastBit q) := by omega
  exact mul_pos (by exact_mod_cast hpos) hbit

/-- Rounding at most doubles a positive number, and at most halves it. -/
lemma round_bounds {q : ℚ} (h : 0 < q) : q ≤ 2 * round q ∧ round q ≤ 2 * q := by
  have hbit : (0 : ℚ) < 2 ^ lastBit q := zpow_pos (by norm_num) _
  have hscaled := one_le_div_lastBit h
  have hfloor : 1 ≤ ⌊q / 2 ^ lastBit q⌋ := Int.le_floor.mpr (by exact_mod_cast hscaled)
  have hfloorRat : (1 : ℚ) ≤ ⌊q / 2 ^ lastBit q⌋ := by exact_mod_cast hfloor
  obtain ⟨hlower, hupper⟩ := roundHalfEven_bounds (q / 2 ^ lastBit q)
  have hlowerRat : (⌊q / 2 ^ lastBit q⌋ : ℚ) ≤ roundHalfEven (q / 2 ^ lastBit q) := by
    exact_mod_cast hlower
  have hupperRat : (roundHalfEven (q / 2 ^ lastBit q) : ℚ) ≤ ⌊q / 2 ^ lastBit q⌋ + 1 := by
    exact_mod_cast hupper
  have hle := Int.floor_le (q / 2 ^ lastBit q)
  have hlt := Int.lt_floor_add_one (q / 2 ^ lastBit q)
  have hq : q = q / 2 ^ lastBit q * 2 ^ lastBit q := (div_mul_cancel₀ _ hbit.ne').symm
  constructor
  · calc q = q / 2 ^ lastBit q * 2 ^ lastBit q := hq
      _ ≤ 2 * roundHalfEven (q / 2 ^ lastBit q) * 2 ^ lastBit q :=
          mul_le_mul_of_nonneg_right (by linarith) hbit.le
      _ = 2 * round q := mul_assoc _ _ _
  · calc round q = roundHalfEven (q / 2 ^ lastBit q) * 2 ^ lastBit q := rfl
      _ ≤ 2 * (q / 2 ^ lastBit q) * 2 ^ lastBit q :=
          mul_le_mul_of_nonneg_right (by linarith) hbit.le
      _ = 2 * q := by rw [mul_assoc, ← hq]

lemma round_abs (q : ℚ) : |round q| = round |q| := by
  rcases lt_trichotomy q 0 with hneg | rfl | hpos
  · rw [abs_of_neg hneg, round_neg, ← abs_neg, ← round_neg, abs_of_pos (round_pos (by linarith))]
  · rw [round_zero, abs_zero, round_zero]
  · rw [abs_of_pos hpos, abs_of_pos (round_pos hpos)]

lemma abs_round_le (q : ℚ) : |round q| ≤ 2 * |q| := by
  by_cases h : q = 0
  · rw [h, round_zero, abs_zero, mul_zero]
  · have hpos : 0 < |q| := abs_pos.mpr h
    have hround : 0 ≤ round |q| := (round_pos hpos).le
    rw [round_abs, ← abs_of_nonneg hround, abs_of_nonneg hround]
    exact (round_bounds hpos).2

lemma round_one : round 1 = 1 := by
  have hlog : Int.log 2 (1 : ℚ) = 0 := Int.log_one_right 2
  have hscaled : (1 : ℚ) / 2 ^ (-52 : ℤ) = ((2 ^ 52 : ℤ) : ℚ) := by norm_num
  unfold round lastBit
  rw [abs_one, hlog, zero_sub, hscaled, roundHalfEven_intCast]
  norm_num

def value (x : Binary53) : ℚ := Option.getD x 0

def ofRational (q : ℚ) : Binary53 := some (round q)

/-- An operation on two finite numbers. -/
def lift (operation : ℚ → ℚ → ℚ) : Binary53 → Binary53 → Binary53
  | some x, some y => ofRational (operation x y)
  | _, _ => none

def divide : Binary53 → Binary53 → Binary53
  | some x, some y => if y = 0 then none else ofRational (x / y)
  | _, _ => none

/-- A square root to 52 bits behind the point. -/
def squareRoot (x : Binary53) : Binary53 :=
  Option.map (fun q : ℚ => round (Nat.sqrt (q * 2 ^ 104).floor.toNat / 2 ^ 52)) x

/-- The correctly rounded sum. -/
def exactlyRoundedSum (values : List Binary53) : Binary53 :=
  if values.all Option.isSome then ofRational ((values.map value).sum) else none

lemma divide_ofRational (x : ℚ) {y : ℚ} (h : 0 < y) :
    divide (ofRational x) (ofRational y) = ofRational (round x / round y) :=
  if_neg (round_pos h).ne'

lemma rank_isSome (k : ℕ) {n : ℕ} (h : 0 < n) :
    Option.isSome (divide (divide (ofRational k) (ofRational 2)) (ofRational n)) = true := by
  rw [divide_ofRational _ (by norm_num), divide_ofRational _ (by exact_mod_cast h)]
  rfl

instance : Numeric Binary53 where
  isFinite := Option.isSome
  toRat := value
  ofRat := ofRational
  nan := none
  neg := Option.map fun q : ℚ => -q
  abs := Option.map fun q : ℚ => |q|
  log _ := none
  sqrt := squareRoot
  add := lift (· + ·)
  sub := lift (· - ·)
  mul := lift (· * ·)
  div := divide
  sum := List.foldl (lift (· + ·)) (ofRational 0)
  fsum values := some (exactlyRoundedSum values)
  frexpExponent x := if value x = 0 then 0 else Int.log 2 |value x| + 1
  ldexp x exponent := Option.map (fun q : ℚ => round (q * 2 ^ exponent)) x
  isFinite_nan := rfl
  isFinite_ofRat _ _ := rfl
  isFinite_sqrt x h _ := by
    cases x with
    | none => cases h
    | some q => rfl
  isFinite_rank k n hn _ := rank_isSome k hn
  toRat_zero := round_zero
  toRat_one := round_one
  toRat_neg x h := by
    cases x with
    | none => cases h
    | some q => rfl
  neg_ofRat n := by
    change some (-round n) = some (round ((-n : ℤ) : ℚ))
    rw [Int.cast_neg, round_neg]
  abs_ofRat n := by
    change some |round n| = some (round ((|n| : ℤ) : ℚ))
    rw [Int.cast_abs, round_abs]
  add_ofRat a b ha hb := by
    change some (round (round a + round b)) = some (round ((a + b : ℤ) : ℚ))
    rw [show round a = a from ha, show round b = b from hb, Int.cast_add]
  sub_ofRat a b ha hb := by
    change some (round (round a - round b)) = some (round ((a - b : ℤ) : ℚ))
    rw [show round a = a from ha, show round b = b from hb, Int.cast_sub]
  mul_ofRat a b ha hb := by
    change some (round (round a * round b)) = some (round ((a * b : ℤ) : ℚ))
    rw [show round a = a from ha, show round b = b from hb, Int.cast_mul]
  div_ofRat a b ha hb hne := by
    change (if round b = 0 then none else some (round (round a / round b)))
      = some (round (a / b))
    rw [show round a = a from ha, show round b = b from hb, if_neg (by exact_mod_cast hne)]

end Binary53

/-- Numbers with 53 significant bits that are finite below `2 ^ 1024`. -/
def Binary64 := Binary53
  deriving DecidableEq

namespace Binary64

def isFinite : Binary64 → Bool
  | some q => |q| < 2 ^ 1024
  | none => false

lemma isFinite_ofRational {q : ℚ} (h : 2 * |q| < 2 ^ 1024) :
    isFinite (Binary53.ofRational q) = true :=
  decide_eq_true (lt_of_le_of_lt (Binary53.abs_round_le q) h)

lemma sqrt_floor_lt {x : ℚ} {m : ℕ} (h : x < 2 ^ m * 2 ^ m) (hnonneg : 0 ≤ x) :
    (x.floor.toNat.sqrt : ℚ) < 2 ^ m := by
  have hfloor : (x.floor.toNat : ℚ) ≤ x := by
    have hpos : 0 ≤ x.floor := Rat.le_floor_iff.mpr (by simpa using hnonneg)
    have hcast : ((x.floor.toNat : ℤ) : ℚ) = x.floor := by rw [Int.toNat_of_nonneg hpos]
    calc (x.floor.toNat : ℚ) = x.floor := by exact_mod_cast hcast
      _ ≤ x := Rat.floor_le _
  have hlt : x.floor.toNat < 2 ^ m * 2 ^ m := by
    have hbound := lt_of_le_of_lt hfloor h
    exact_mod_cast hbound
  exact_mod_cast Nat.sqrt_lt.mpr hlt

lemma isFinite_squareRoot {q : ℚ} (h : |q| < 2 ^ 1024) (hnonneg : 0 ≤ q) :
    isFinite (Binary53.squareRoot (some q)) = true := by
  have hscaled : q * 2 ^ 104 < 2 ^ 564 * 2 ^ 564 := by
    calc q * 2 ^ 104 < 2 ^ 1024 * 2 ^ 104 :=
          mul_lt_mul_of_pos_right (lt_of_abs_lt h) (by positivity)
      _ = 2 ^ 564 * 2 ^ 564 := (pow_add _ _ _).symm.trans (pow_add 2 564 564)
  have hroot := sqrt_floor_lt hscaled (by positivity)
  have hquotient : ((q * 2 ^ 104).floor.toNat.sqrt : ℚ) / 2 ^ 52 < 2 ^ 512 := by
    have hsplit : (2 : ℚ) ^ 512 * 2 ^ 52 = 2 ^ 564 := by rw [← pow_add]
    rw [div_lt_iff₀ (by positivity), hsplit]
    exact hroot
  have hpositive : (0 : ℚ) ≤ (q * 2 ^ 104).floor.toNat.sqrt / 2 ^ 52 :=
    div_nonneg (Nat.cast_nonneg _) (pow_pos two_pos _).le
  have hdouble : (2 : ℚ) * ((q * 2 ^ 104).floor.toNat.sqrt / 2 ^ 52) < 2 ^ 1 * 2 ^ 512 := by
    rw [pow_one]
    exact mul_lt_mul_of_pos_left hquotient two_pos
  have hlimit : (2 : ℚ) ^ 1 * 2 ^ 512 ≤ 2 ^ 1024 := by
    rw [← pow_add]
    exact pow_le_pow_right₀ (by norm_num) (by norm_num)
  apply isFinite_ofRational
  rw [abs_of_nonneg hpositive]
  exact hdouble.trans_le hlimit

/-- Ranks keep their size when they are rounded. -/
lemma isFinite_rank {k n : ℕ} (hn : 0 < n) (hk : k ≤ 2 * n) :
    isFinite (Binary53.divide (Binary53.divide (Binary53.ofRational k) (Binary53.ofRational 2))
      (Binary53.ofRational n)) = true := by
  have hnRat : (0 : ℚ) < n := by exact_mod_cast hn
  have hkRat : (k : ℚ) ≤ 2 * n := by exact_mod_cast hk
  rw [Binary53.divide_ofRational _ (by norm_num), Binary53.divide_ofRational _ hnRat]
  apply isFinite_ofRational
  have htwo := (Binary53.round_bounds (show (0 : ℚ) < 2 by norm_num)).1
  have hlength := (Binary53.round_bounds hnRat).1
  have hrank := Binary53.abs_round_le (k : ℚ)
  have hhalf := Binary53.abs_round_le (Binary53.round k / Binary53.round 2)
  have hpositive := Binary53.round_pos hnRat
  have hpositiveTwo := Binary53.round_pos (show (0 : ℚ) < 2 by norm_num)
  rw [Nat.abs_cast] at hrank
  have hquotient : |Binary53.round k / Binary53.round 2| ≤ 4 * n := by
    rw [abs_div, abs_of_pos hpositiveTwo, div_le_iff₀ hpositiveTwo]
    nlinarith
  have hfraction : |Binary53.round (Binary53.round k / Binary53.round 2) / Binary53.round n|
      ≤ 16 := by
    rw [abs_div, abs_of_pos hpositive, div_le_iff₀ hpositive]
    linarith
  calc 2 * |Binary53.round (Binary53.round k / Binary53.round 2) / Binary53.round n|
      ≤ 2 * 16 := mul_le_mul_of_nonneg_left hfraction zero_le_two
    _ < 2 ^ 10 := by norm_num
    _ ≤ 2 ^ 1024 := pow_le_pow_right₀ (by norm_num) (by norm_num)

instance : Numeric Binary64 :=
  { (inferInstance : Numeric Binary53) with
    isFinite := isFinite
    isFinite_nan := rfl
    isFinite_ofRat := by
      intro q h
      apply isFinite_ofRational
      have hlimit : (integerLimit * integerLimit : ℚ) = 2 ^ 1022 := by
        rw [integerLimit, Nat.cast_pow, Nat.cast_ofNat, ← pow_add]
      rw [hlimit] at h
      calc 2 * |q| < 2 ^ 1 * 2 ^ 1022 := by
            rw [pow_one]
            exact mul_lt_mul_of_pos_left h two_pos
        _ = 2 ^ 1023 := (pow_add _ _ _).symm
        _ ≤ 2 ^ 1024 := pow_le_pow_right₀ (by norm_num) (by norm_num)
    isFinite_sqrt := by
      intro x h hnonneg
      cases x with
      | none => cases h
      | some q => exact isFinite_squareRoot (of_decide_eq_true h) hnonneg
    isFinite_rank := fun _ _ => isFinite_rank
    toRat_neg := by
      intro x h
      cases x with
      | none => cases h
      | some q => rfl }

end Binary64

end ThesisTrace.Alpha
