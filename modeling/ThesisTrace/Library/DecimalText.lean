import Mathlib.Data.List.DropRight
import Mathlib.Data.Nat.Factorization.Basic
import Mathlib.Tactic.FieldSimp
import Mathlib.Tactic.Ring
import ThesisTrace.Library.DecimalContext
import ThesisTrace.Library.RatioText

/-!
# Canonical texts of decimal numbers

A decimal number is written as an integer coefficient without trailing zeros and an exponent of
ten. Writing and reading are inverse, and a number of a decimal context has a short text.
-/

namespace DecimalText
open DecimalContext RatioText

/-- Rationals with finitely many decimal places. -/
def IsDecimal (q : ℚ) : Prop :=
  ∃ m k : ℤ, q = m * 10 ^ k

/-- The least number of decimal places of a decimal number. -/
def decimalPlaces (q : ℚ) : ℕ :=
  ((List.range (Nat.log2 q.den + 1)).find? fun k => 10 ^ k % q.den == 0).getD 0

/-- The digits of a coefficient without its trailing zeros. -/
def keptDigits (coefficient : ℕ) : List Char :=
  (Nat.toDigits 10 coefficient).rdropWhile (· == '0')

def exponentDigits (exponent : ℤ) : List Char :=
  (if 0 ≤ exponent then '+' else '-') :: Nat.toDigits 10 exponent.natAbs

/-- `canonical_decimal`: `coefficient e exponent`, and `0` alone for zero. -/
def canonicalDecimal (q : ℚ) : String :=
  if q = 0 then "0"
  else
    let coefficient := (q * 10 ^ decimalPlaces q).num.natAbs
    let digits := Nat.toDigits 10 coefficient
    let kept := keptDigits coefficient
    let exponent : ℤ := (digits.length - kept.length : ℕ) - decimalPlaces q
    String.ofList ((if q < 0 then ['-'] else []) ++ kept ++ 'e' :: exponentDigits exponent)

def readDigits (digits : List Char) : Option ℕ :=
  if digits.isEmpty || !digits.all Char.isDigit then none
  else some (Nat.ofDigitChars 10 digits 0)

def readUnsigned (text : List Char) : Option ℚ :=
  let coefficient := readDigits (text.takeWhile (· != 'e'))
  match text.dropWhile (· != 'e') with
  | [] => coefficient.map fun c => (c : ℚ)
  | _ :: '+' :: exponent =>
    coefficient.bind fun c => (readDigits exponent).map fun e => (c : ℚ) * 10 ^ e
  | _ :: '-' :: exponent =>
    coefficient.bind fun c => (readDigits exponent).map fun e => (c : ℚ) / 10 ^ e
  | _ => none

/-- The value of a text. Texts outside this grammar are never canonical. -/
def readDecimal (text : String) : Option ℚ :=
  if text.toList.head? = some '-' then (readUnsigned text.toList.tail).map fun q => -q
  else readUnsigned text.toList

/-! ### Coefficients -/

lemma keptDigits_append (c : ℕ) : ∃ d, Nat.toDigits 10 c = keptDigits c ++ List.replicate d '0' := by
  refine ⟨((Nat.toDigits 10 c).rtakeWhile (· == '0')).length, ?_⟩
  have hzeros : (Nat.toDigits 10 c).rtakeWhile (· == '0') =
      List.replicate ((Nat.toDigits 10 c).rtakeWhile (· == '0')).length '0' := by
    rw [List.eq_replicate_iff]
    refine ⟨rfl, fun x hx => ?_⟩
    simpa using List.mem_rtakeWhile_imp hx
  rw [← hzeros]
  exact List.rdropWhile_append_rtakeWhile.symm

lemma isDigit_keptDigits (c : ℕ) : ∀ x ∈ keptDigits c, x.isDigit = true := fun x hx =>
  isDigit_toDigits c x ((List.rdropWhile_prefix _ _).subset hx)

/-- The kept digits and the number of dropped zeros make up the coefficient. -/
structure Kept (c n d : ℕ) : Prop where
  value : Nat.ofDigitChars 10 (keptDigits c) 0 = n
  length : (Nat.toDigits 10 c).length = (keptDigits c).length + d
  coefficient : c = n * 10 ^ d
  last : n % 10 ≠ 0

lemma exists_kept {c : ℕ} (hpos : 0 < c) : ∃ n d, Kept c n d := by
  obtain ⟨d, hd⟩ := keptDigits_append c
  have hc : c = Nat.ofDigitChars 10 (keptDigits c) 0 * 10 ^ d := by
    conv_lhs => rw [← Nat.ofDigitChars_ten_toDigits (n := c), hd]
    rw [Nat.ofDigitChars_append, Nat.ofDigitChars_replicate_zero, mul_comm]
  refine ⟨_, d, rfl, by rw [hd]; simp, hc, ?_⟩
  have hne : keptDigits c ≠ [] := by
    intro hnil
    rw [hnil] at hc
    simp at hc
    omega
  have hlast : ¬((keptDigits c).getLast hne == '0') = true := List.rdropWhile_last_not _ _ hne
  have hdigit := isDigit_keptDigits c _ (List.getLast_mem hne)
  rw [← List.dropLast_append_getLast hne, Nat.ofDigitChars_append, Nat.ofDigitChars_cons,
    Nat.ofDigitChars_nil]
  generalize (keptDigits c).getLast hne = x at hlast hdigit
  rw [Char.isDigit_iff_toNat] at hdigit
  have hx : x.toNat ≠ '0'.toNat := fun h => hlast (by rw [beq_iff_eq]; exact Char.toNat_inj.mp h)
  simp only [Char.reduceToNat] at hx hdigit ⊢
  omega

lemma isDecimal_den {q : ℚ} (h : IsDecimal q) : ∃ k : ℕ, q.den ∣ 10 ^ k := by
  obtain ⟨m, k, rfl⟩ := h
  refine ⟨k.natAbs, ?_⟩
  rcases Int.natAbs_eq k with hk | hk
  · have hint : (m : ℚ) * 10 ^ k = ((m * 10 ^ k.natAbs : ℤ) : ℚ) := by
      conv_lhs => rw [hk, zpow_natCast]
      push_cast
      ring
    rw [hint, Rat.den_intCast]
    exact one_dvd _
  · have hfrac : (m : ℚ) * 10 ^ k = (m : ℚ) / ((10 ^ k.natAbs : ℤ) : ℚ) := by
      conv_lhs => rw [hk, zpow_neg, zpow_natCast]
      push_cast
      ring
    rw [hfrac]
    exact_mod_cast Rat.den_dvd m (10 ^ k.natAbs)

/-- A power of ten that a number divides need not be higher than its binary logarithm. -/
lemma dvd_ten_pow_log {n k : ℕ} (hn : n ≠ 0) (h : n ∣ 10 ^ k) : n ∣ 10 ^ Nat.log2 n := by
  have hten : (10 : ℕ) ≠ 0 := by decide
  rw [← Nat.factorization_le_iff_dvd hn (pow_ne_zero _ hten)] at h ⊢
  intro p
  have hp := h p
  rw [Nat.factorization_pow, Finsupp.smul_apply, smul_eq_mul] at hp ⊢
  by_cases hzero : (10 : ℕ).factorization p = 0
  · rw [hzero, mul_zero] at hp ⊢
    exact hp
  · have hprime : p.Prime := by
      by_contra hcomposite
      exact hzero (Nat.factorization_eq_zero_of_not_prime _ hcomposite)
    have hpow : 2 ^ n.factorization p ≤ n :=
      (Nat.pow_le_pow_left hprime.two_le _).trans (Nat.ordProj_le p hn)
    calc n.factorization p ≤ Nat.log2 n := (Nat.le_log2 hn).mpr hpow
      _ ≤ Nat.log2 n * (10 : ℕ).factorization p :=
        Nat.le_mul_of_pos_right _ (Nat.pos_of_ne_zero hzero)

lemma den_dvd_decimalPlaces {q : ℚ} (h : IsDecimal q) : q.den ∣ 10 ^ decimalPlaces q := by
  obtain ⟨k, hk⟩ := isDecimal_den h
  have hlog := dvd_ten_pow_log q.den_pos.ne' hk
  unfold decimalPlaces
  cases hfind : (List.range (Nat.log2 q.den + 1)).find? fun k => 10 ^ k % q.den == 0 with
  | none =>
    have hnone := List.find?_eq_none.mp hfind (Nat.log2 q.den)
      (List.mem_range.mpr (Nat.lt_succ_self _))
    exact absurd (beq_iff_eq.mpr (Nat.mod_eq_zero_of_dvd hlog)) hnone
  | some found =>
    have hfound := List.find?_some hfind
    rw [Option.getD_some]
    exact Nat.dvd_of_mod_eq_zero (beq_iff_eq.mp hfound)

/-- The coefficient that is written. -/
def coefficientOf (q : ℚ) : ℕ :=
  (q * 10 ^ decimalPlaces q).num.natAbs

lemma coefficientOf_eq {q : ℚ} (h : IsDecimal q) :
    (coefficientOf q : ℚ) = |q| * 10 ^ decimalPlaces q := by
  obtain ⟨r, hr⟩ := den_dvd_decimalPlaces h
  have hten : (10 : ℚ) ^ decimalPlaces q = q.den * r := by
    exact_mod_cast congrArg (Nat.cast (R := ℚ)) hr
  have hint : q * 10 ^ decimalPlaces q = ((q.num * r : ℤ) : ℚ) := by
    rw [hten, ← mul_assoc, Rat.mul_den_eq_num]
    push_cast
    ring
  have hpos : (0 : ℚ) < 10 ^ decimalPlaces q := by positivity
  calc (coefficientOf q : ℚ) = |q * 10 ^ decimalPlaces q| := by
        unfold coefficientOf
        rw [hint, Rat.num_intCast, Nat.cast_natAbs, Int.cast_abs]
    _ = |q| * 10 ^ decimalPlaces q := by rw [abs_mul, abs_of_pos hpos]

lemma coefficientOf_pos {q : ℚ} (h : IsDecimal q) (hne : q ≠ 0) : 0 < coefficientOf q := by
  have hpos : (0 : ℚ) < coefficientOf q := by
    rw [coefficientOf_eq h]
    exact mul_pos (abs_pos.mpr hne) (by positivity)
  exact_mod_cast hpos

/-! ### Reading back -/

lemma readDigits_toDigits (n : ℕ) : readDigits (Nat.toDigits 10 n) = some n := by
  have hall : (Nat.toDigits 10 n).all Char.isDigit = true :=
    List.all_eq_true.mpr (isDigit_toDigits n)
  unfold readDigits
  rw [hall, List.isEmpty_eq_false_iff.mpr Nat.toDigits_ne_nil, Nat.ofDigitChars_ten_toDigits]
  rfl

lemma Kept.ne_nil {c n d : ℕ} (h : Kept c n d) : keptDigits c ≠ [] := by
  intro hnil
  have hvalue := h.value
  rw [hnil, Nat.ofDigitChars_nil] at hvalue
  exact h.last (by rw [← hvalue])

lemma readDigits_keptDigits {c n d : ℕ} (h : Kept c n d) : readDigits (keptDigits c) = some n := by
  have hall : (keptDigits c).all Char.isDigit = true :=
    List.all_eq_true.mpr (isDigit_keptDigits c)
  have hne := h.ne_nil
  unfold readDigits
  rw [hall, List.isEmpty_eq_false_iff.mpr hne, h.value]
  rfl

lemma ne_of_isDigit {x y : Char} (hx : x.isDigit = true) (hy : y.isDigit = false) : x ≠ y := by
  rintro rfl
  rw [hx] at hy
  cases hy

lemma readUnsigned_eq {digits : List Char} {n : ℕ} (hdigits : ∀ x ∈ digits, x.isDigit = true)
    (hread : readDigits digits = some n) (exponent : ℤ) :
    readUnsigned (digits ++ 'e' :: exponentDigits exponent) = some ((n : ℚ) * 10 ^ exponent) := by
  have hother : ∀ x ∈ digits, (x != 'e') = true := fun x hx =>
    bne_iff_ne.mpr (ne_of_isDigit (hdigits x hx) (by decide))
  unfold readUnsigned
  rw [List.takeWhile_append_of_pos hother, List.dropWhile_append_of_pos hother]
  simp only [bne_self_eq_false, Bool.false_eq_true, not_false_eq_true, List.takeWhile_cons_of_neg,
    List.dropWhile_cons_of_neg, List.append_nil, hread]
  unfold exponentDigits
  by_cases hsign : 0 ≤ exponent
  · obtain ⟨e, rfl⟩ := Int.eq_ofNat_of_zero_le hsign
    rw [if_pos hsign]
    simp [readDigits_toDigits]
  · obtain ⟨e, he⟩ := Int.eq_ofNat_of_zero_le (show 0 ≤ -exponent by omega)
    have hexp : exponent = -(e : ℤ) := by omega
    rw [if_neg hsign, hexp]
    simp [readDigits_toDigits, div_eq_mul_inv]

/-- The parts of the text of a number other than zero. -/
lemma toList_canonicalDecimal {q : ℚ} (h : IsDecimal q) (hne : q ≠ 0) :
    ∃ (n d : ℕ) (e : ℤ), Kept (coefficientOf q) n d ∧ |q| = (n : ℚ) * 10 ^ e ∧
      (canonicalDecimal q).toList = (if q < 0 then ['-'] else []) ++
        keptDigits (coefficientOf q) ++ 'e' :: exponentDigits e := by
  obtain ⟨n, d, hkept⟩ := exists_kept (coefficientOf_pos h hne)
  refine ⟨n, d, (d : ℤ) - decimalPlaces q, hkept, ?_, ?_⟩
  · have hcoefficient := coefficientOf_eq h
    rw [hkept.coefficient] at hcoefficient
    rw [zpow_sub₀ (by norm_num), zpow_natCast, zpow_natCast, ← mul_div_assoc,
      eq_div_iff (by positivity)]
    exact_mod_cast hcoefficient.symm
  · have hlength : (Nat.toDigits 10 (coefficientOf q)).length -
        (keptDigits (coefficientOf q)).length = d := by
      rw [hkept.length]
      omega
    unfold canonicalDecimal
    rw [if_neg hne, ← hlength]
    exact String.toList_ofList

/-- The text of a decimal number is read back as that number. -/
theorem readDecimal_canonicalDecimal {q : ℚ} (h : IsDecimal q) :
    readDecimal (canonicalDecimal q) = some q := by
  by_cases hzero : q = 0
  · rw [hzero]
    decide
  · obtain ⟨n, d, e, hkept, hvalue, htext⟩ := toList_canonicalDecimal h hzero
    have hread := readUnsigned_eq (isDigit_keptDigits _) (readDigits_keptDigits hkept) e
    unfold readDecimal
    rw [htext]
    by_cases hneg : q < 0
    · rw [if_pos hneg]
      simp only [List.cons_append, List.nil_append, List.head?_cons, if_true, List.tail_cons]
      rw [hread, ← hvalue, abs_of_neg hneg]
      simp
    · obtain ⟨x, rest, hcons⟩ := List.exists_cons_of_ne_nil hkept.ne_nil
      have hdigit : x.isDigit = true :=
        isDigit_keptDigits (coefficientOf q) x (by rw [hcons]; exact List.mem_cons_self)
      have hhead : ¬(some x = some '-') := fun h =>
        ne_of_isDigit hdigit (by decide) (Option.some.inj h)
      rw [if_neg hneg, List.nil_append, if_neg (by rw [hcons]; exact hhead), hread, ← hvalue,
        abs_of_nonneg (not_lt.mp hneg)]

lemma canonicalDecimal_inj {q r : ℚ} (hq : IsDecimal q) (hr : IsDecimal r)
    (h : canonicalDecimal q = canonicalDecimal r) : q = r := by
  have hread := readDecimal_canonicalDecimal hq
  rw [h, readDecimal_canonicalDecimal hr] at hread
  exact (Option.some.inj hread).symm

/-! ### Lengths -/

/-- Numbers of a decimal context: at most `p` significant digits, exponents up to `e`. -/
def InContext (p e : ℕ) (q : ℚ) : Prop :=
  ∃ m k : ℤ, |m| < 10 ^ p ∧ |k| ≤ e ∧ q = m * 10 ^ k

lemma InContext.isDecimal {p e : ℕ} {q : ℚ} (h : InContext p e q) : IsDecimal q := by
  obtain ⟨m, k, _, _, hq⟩ := h
  exact ⟨m, k, hq⟩

/-- Multiples of a power of ten. -/
def Aligned (k : ℤ) (x : ℚ) : Prop :=
  ∃ m : ℤ, x = m * 10 ^ k

lemma Aligned.add {k : ℤ} {x y : ℚ} (hx : Aligned k x) (hy : Aligned k y) : Aligned k (x + y) := by
  obtain ⟨m, rfl⟩ := hx
  obtain ⟨n, rfl⟩ := hy
  exact ⟨m + n, by push_cast; ring⟩

lemma Aligned.sub {k : ℤ} {x y : ℚ} (hx : Aligned k x) (hy : Aligned k y) : Aligned k (x - y) := by
  obtain ⟨m, rfl⟩ := hx
  obtain ⟨n, rfl⟩ := hy
  exact ⟨m - n, by push_cast; ring⟩

lemma Aligned.of_le {k l : ℤ} {x : ℚ} (h : Aligned l x) (hle : k ≤ l) : Aligned k x := by
  obtain ⟨m, rfl⟩ := h
  obtain ⟨n, hn⟩ := Int.eq_ofNat_of_zero_le (sub_nonneg.mpr hle)
  refine ⟨m * 10 ^ n, ?_⟩
  have hl : l = n + k := by omega
  rw [hl, zpow_add₀ (by norm_num)]
  push_cast
  rw [zpow_natCast]
  ring

lemma InContext.aligned {p e : ℕ} {q : ℚ} (h : InContext p e q) : Aligned (-e) q := by
  obtain ⟨m, k, -, hk, rfl⟩ := h
  have hlow := (abs_le.mp hk).1
  exact Aligned.of_le ⟨m, rfl⟩ hlow

/-- A multiple of a power of ten below the digits of a context is representable. -/
lemma Aligned.representable {p : ℕ} {k : ℤ} {x : ℚ} (h : Aligned k x) (hx : 0 ≤ x)
    (hlt : x < 10 ^ (p + k)) : Representable p x := by
  obtain ⟨m, rfl⟩ := h
  have hpow : (0 : ℚ) < 10 ^ k := zpow_pos (by norm_num) k
  rw [zpow_add₀ (by norm_num), zpow_natCast] at hlt
  have hm : (0 : ℚ) ≤ m := nonneg_of_mul_nonneg_left hx hpow
  have hmlt : (m : ℚ) < 10 ^ p := lt_of_mul_lt_mul_right hlt hpow.le
  refine ⟨m, k, ?_, rfl⟩
  rw [abs_of_nonneg (by exact_mod_cast hm)]
  exact_mod_cast hmlt

/-- Rounding keeps multiples of a power of ten. -/
lemma Aligned.roundTo {p : ℕ} {k : ℤ} {x : ℚ} (h : Aligned k x) : Aligned k (roundTo p x) := by
  unfold DecimalContext.roundTo
  by_cases hle : k ≤ quantum p x
  · exact Aligned.of_le ⟨_, rfl⟩ hle
  · obtain ⟨m, hm⟩ := Aligned.of_le h (not_le.mp hle).le
    have hpow : (10 : ℚ) ^ quantum p x ≠ 0 := (pow_quantum_pos p x).ne'
    have hquotient : x / 10 ^ quantum p x = m := by
      rw [div_eq_iff hpow]
      exact hm
    rw [hquotient, roundHalfEven_intCast, ← hm]
    exact h

/-- A nonnegative number of short digits stays in a context below a number of the context. -/
lemma inContext_of_le {p e : ℕ} {x bound : ℚ} (hx : 0 ≤ x) (hdigits : Representable p x)
    (haligned : Aligned (-e) x) (hle : x ≤ bound) (hbound : InContext p e bound) :
    InContext p e x := by
  obtain ⟨m, k, hm, hk⟩ := hdigits
  have hpow : ∀ j : ℤ, (0 : ℚ) < 10 ^ j := fun j => zpow_pos (by norm_num) j
  have hmnonneg : 0 ≤ m := by
    rw [hk] at hx
    exact_mod_cast nonneg_of_mul_nonneg_left hx (hpow k)
  rw [abs_of_nonneg hmnonneg] at hm
  by_cases hlow : k < -e
  · -- fewer digits suffice at the least exponent
    obtain ⟨n, hn⟩ := haligned
    have hnm : (n : ℚ) ≤ m := by
      refine le_of_mul_le_mul_right ?_ (hpow (-e))
      rw [← hn, hk]
      exact mul_le_mul_of_nonneg_left (zpow_le_zpow_right₀ (by norm_num) hlow.le)
        (by exact_mod_cast hmnonneg)
    have hnnonneg : (0 : ℚ) ≤ n := by
      rw [hn] at hx
      exact nonneg_of_mul_nonneg_left hx (hpow (-e))
    refine ⟨n, -e, ?_, by rw [abs_neg, Nat.abs_cast], hn⟩
    rw [abs_of_nonneg (by exact_mod_cast hnnonneg)]
    exact lt_of_le_of_lt (by exact_mod_cast hnm) hm
  · by_cases hhigh : k ≤ e
    · exact ⟨m, k, by rwa [abs_of_nonneg hmnonneg], abs_le.mpr ⟨not_lt.mp hlow, hhigh⟩, hk⟩
    · obtain ⟨j, hj⟩ := Int.eq_ofNat_of_zero_le (show 0 ≤ k - e by omega)
      have hkj : k = j + e := by omega
      have hwhole : x = (m * 10 ^ j : ℤ) * 10 ^ (e : ℤ) := by
        rw [hk, hkj, zpow_add₀ (by norm_num), zpow_natCast]
        push_cast
        ring
      have hnonneg : (0 : ℤ) ≤ m * 10 ^ j := mul_nonneg hmnonneg (by positivity)
      refine ⟨m * 10 ^ j, e, ?_, by rw [Nat.abs_cast], hwhole⟩
      rw [abs_of_nonneg hnonneg]
      obtain ⟨mb, kb, hmb, hkb, rfl⟩ := hbound
      have hkbLe := (abs_le.mp hkb).2
      have hlt : ((m * 10 ^ j : ℤ) : ℚ) < (10 ^ p : ℤ) := by
        refine lt_of_mul_lt_mul_right ?_ (hpow e).le
        rw [← hwhole]
        calc x ≤ mb * 10 ^ kb := hle
          _ ≤ |(mb : ℚ)| * 10 ^ kb := mul_le_mul_of_nonneg_right (le_abs_self _) (hpow kb).le
          _ ≤ |(mb : ℚ)| * 10 ^ (e : ℤ) :=
            mul_le_mul_of_nonneg_left (zpow_le_zpow_right₀ (by norm_num) hkbLe) (abs_nonneg _)
          _ < ((10 ^ p : ℤ) : ℚ) * 10 ^ (e : ℤ) := by
            refine mul_lt_mul_of_pos_right ?_ (hpow e)
            rw [← Int.cast_abs]
            exact_mod_cast hmb
      exact_mod_cast hlt

lemma length_exponentDigits {exponent : ℤ} {size : ℕ} (hsize : 0 < size)
    (h : |exponent| < 10 ^ size) : (exponentDigits exponent).length ≤ size + 1 := by
  have habs : exponent.natAbs < 10 ^ size := by
    zify
    exact h
  have hdigits := (Nat.length_toDigits_le_iff (by decide) hsize).mpr habs
  unfold exponentDigits
  rw [List.length_cons]
  omega

/-- A coefficient without trailing zeros has the least digits and the highest exponent. -/
lemma le_of_eq_mul_pow {n : ℕ} {m k e : ℤ} (hlast : n % 10 ≠ 0)
    (h : (n : ℚ) * 10 ^ e = |(m : ℚ)| * 10 ^ k) : k ≤ e ∧ (n : ℤ) ≤ |m| := by
  have hte : (0 : ℚ) < 10 ^ e := zpow_pos (by norm_num) e
  have hexp : k ≤ e := by
    by_contra hlt
    obtain ⟨j, hj⟩ := Int.eq_ofNat_of_zero_le (show 0 ≤ k - e - 1 by omega)
    have hk : k = j + 1 + e := by omega
    have hn : (n : ℚ) = |(m : ℚ)| * 10 ^ (j + 1) := by
      rw [hk, zpow_add₀ (by norm_num), ← mul_assoc] at h
      have hcancel := mul_right_cancel₀ hte.ne' h
      exact_mod_cast hcancel
    have hnat : n = m.natAbs * 10 ^ j * 10 := by
      rw [← Int.cast_abs] at hn
      have hint : (n : ℤ) = |m| * 10 ^ (j + 1) := by exact_mod_cast hn
      zify
      rw [hint, pow_succ]
      ring
    omega
  refine ⟨hexp, ?_⟩
  obtain ⟨j, hj⟩ := Int.eq_ofNat_of_zero_le (show 0 ≤ e - k by omega)
  have he : e = j + k := by omega
  have htk : (0 : ℚ) < 10 ^ k := zpow_pos (by norm_num) k
  have hm : (n : ℚ) * 10 ^ j = |(m : ℚ)| := by
    rw [he, zpow_add₀ (by norm_num), ← mul_assoc] at h
    have hcancel := mul_right_cancel₀ htk.ne' h
    exact_mod_cast hcancel
  have hint : (n : ℤ) * 10 ^ j = |m| := by
    rw [← Int.cast_abs] at hm
    exact_mod_cast hm
  have hone : (1 : ℤ) ≤ 10 ^ j := one_le_pow₀ (by norm_num)
  nlinarith

/-- The text of a number of a context has a sign, at most `p` digits, and a short exponent. -/
theorem length_canonicalDecimal {p e size : ℕ} {q : ℚ} (hp : 0 < p) (hsize : 0 < size)
    (he : e + p ≤ 10 ^ size) (h : InContext p e q) :
    (canonicalDecimal q).length ≤ p + size + 3 := by
  by_cases hzero : q = 0
  · rw [hzero]
    have hlength : (canonicalDecimal 0).length = 1 := by decide
    omega
  · obtain ⟨m, k, hm, hk, hq⟩ := h
    obtain ⟨n, d, exponent, hkept, hvalue, htext⟩ := toList_canonicalDecimal ⟨m, k, hq⟩ hzero
    have habs : (n : ℚ) * 10 ^ exponent = |(m : ℚ)| * 10 ^ k := by
      rw [← hvalue, hq, abs_mul, abs_of_pos (zpow_pos (by norm_num : (0 : ℚ) < 10) k)]
    obtain ⟨hlow, hn⟩ := le_of_eq_mul_pow hkept.last habs
    have hnpos : 1 ≤ n := by
      have := hkept.last
      omega
    have hkeptLength : (keptDigits (coefficientOf q)).length ≤ p := by
      have hdigits : n * 10 ^ d < 10 ^ (p + d) := by
        rw [pow_add]
        exact Nat.mul_lt_mul_of_pos_right (by zify; omega) (by positivity)
      rw [← hkept.coefficient] at hdigits
      have hle := (Nat.length_toDigits_le_iff (by decide) (by omega)).mpr hdigits
      rw [hkept.length] at hle
      omega
    have hexponent : |exponent| < 10 ^ size := by
      have hhigh : exponent < k + p := by
        have hlt : (10 : ℚ) ^ exponent < 10 ^ (k + p) := by
          calc (10 : ℚ) ^ exponent ≤ n * 10 ^ exponent :=
                le_mul_of_one_le_left (zpow_pos (by norm_num) _).le (by exact_mod_cast hnpos)
            _ = |(m : ℚ)| * 10 ^ k := habs
            _ < 10 ^ p * 10 ^ k := by
                refine mul_lt_mul_of_pos_right ?_ (zpow_pos (by norm_num) k)
                exact_mod_cast hm
            _ = 10 ^ (k + p) := by rw [mul_comm, zpow_add₀ (by norm_num), zpow_natCast]
        exact (zpow_lt_zpow_iff_right₀ (by norm_num)).mp hlt
      have hsizeInt : (e : ℤ) + p ≤ 10 ^ size := by exact_mod_cast he
      rw [abs_le] at hk
      rw [abs_lt]
      constructor <;> omega
    have hlength := length_exponentDigits hsize hexponent
    have htotal := congrArg List.length htext
    rw [String.length_toList] at htotal
    rw [htotal]
    by_cases hneg : q < 0
    · rw [if_pos hneg]
      simp only [List.length_append, List.length_cons, List.length_nil]
      omega
    · rw [if_neg hneg]
      simp only [List.length_append, List.length_cons, List.length_nil]
      omega

/-! ### Normal forms -/

/-- The last digit of a numeral. -/
lemma toDigits_eq_append_last (n : ℕ) :
    ∃ digits, Nat.toDigits 10 n = digits ++ [(n % 10).digitChar] := by
  rw [Nat.toDigits_eq_if (by decide)]
  by_cases hlt : n < 10
  · rw [if_pos hlt, Nat.mod_eq_of_lt hlt]
    exact ⟨[], rfl⟩
  · rw [if_neg hlt]
    exact ⟨_, rfl⟩

/-- Trailing zeros of a numeral are factors of ten. -/
lemma toDigits_mul_pow {n : ℕ} (hpos : 0 < n) (d : ℕ) :
    Nat.toDigits 10 (n * 10 ^ d) = Nat.toDigits 10 n ++ List.replicate d '0' := by
  induction d with
  | zero => rw [pow_zero, mul_one, List.replicate_zero, List.append_nil]
  | succ d ih =>
    have happend := Nat.toDigits_append_toDigits (b := 10) (n := n * 10 ^ d) (d := 0) (by decide)
      (by positivity) (by decide)
    rw [pow_succ, ← mul_assoc, mul_comm _ 10, ← Nat.add_zero (10 * _), ← happend, ih,
      Nat.toDigits_zero, List.append_assoc, List.replicate_succ']

/-- A positive number is written in one way without trailing zeros. -/
lemma normal_unique {n n' : ℕ} {e e' : ℤ} (hlast : n % 10 ≠ 0) (hlast' : n' % 10 ≠ 0)
    (h : (n : ℚ) * 10 ^ e = n' * 10 ^ e') : n = n' ∧ e = e' := by
  have hle := le_of_eq_mul_pow (m := n') hlast (by simpa using h)
  have hge := le_of_eq_mul_pow (m := n) hlast' (by simpa using h.symm)
  simp only [Nat.abs_cast, Nat.cast_le] at hle hge
  omega

lemma Kept.keptDigits_eq {c n d : ℕ} (h : Kept c n d) : keptDigits c = Nat.toDigits 10 n := by
  have hpos : 0 < n := Nat.pos_of_ne_zero fun hzero => h.last (by rw [hzero])
  obtain ⟨d', happend⟩ := keptDigits_append c
  have hlength := h.length
  rw [happend, List.length_append, List.length_replicate, Nat.add_left_cancel_iff] at hlength
  rw [h.coefficient, toDigits_mul_pow hpos, ← h.coefficient, hlength] at happend
  exact (List.append_cancel_right happend).symm

/-- The text of a number with a given normal form. -/
lemma toList_canonicalDecimal_of_normal {q : ℚ} {n : ℕ} {e : ℤ} (hlast : n % 10 ≠ 0)
    (h : |q| = n * 10 ^ e) :
    (canonicalDecimal q).toList = (if q < 0 then ['-'] else []) ++
      Nat.toDigits 10 n ++ 'e' :: exponentDigits e := by
  have hdecimal : IsDecimal q := by
    rcases abs_choice q with hq | hq
    · exact ⟨n, e, by rw [← hq, h, Int.cast_natCast]⟩
    · exact ⟨-n, e, by rw [← neg_neg q, ← hq, h, Int.cast_neg, Int.cast_natCast, neg_mul]⟩
  have hne : q ≠ 0 := by
    rintro rfl
    rw [abs_zero, eq_comm, mul_eq_zero, or_iff_left (zpow_ne_zero _ (by norm_num))] at h
    exact hlast (by rw [Nat.cast_eq_zero.mp h])
  obtain ⟨n', d, e', hkept, hvalue, htext⟩ := toList_canonicalDecimal hdecimal hne
  obtain ⟨rfl, rfl⟩ := normal_unique hlast hkept.last (h.symm.trans hvalue)
  rw [htext, hkept.keptDigits_eq]

end DecimalText
