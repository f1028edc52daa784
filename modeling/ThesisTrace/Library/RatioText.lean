import Mathlib.Data.Nat.Digits.Defs
import Mathlib.Data.Rat.Lemmas
import Mathlib.Tactic.IntervalCases
import Mathlib.Tactic.Linarith

/-!
# Texts of positive ratios

A ratio is written as its numerator and, unless it is one, its denominator, both in decimal
digits. Reading accepts numerals without leading zeros up to a number of digits, and what it
accepts need not be in lowest terms.
-/

namespace RatioText

/-! ### Numerals -/

/-- `[1-9][0-9]*` of at most `limit` characters. -/
def isNumeral (limit : ℕ) : List Char → Bool
  | [] => false
  | c :: rest => c.isDigit && c != '0' && rest.all Char.isDigit && decide (rest.length < limit)

lemma toDigits_head {n : ℕ} (hpos : 0 < n) :
    ∃ c rest, Nat.toDigits 10 n = c :: rest ∧ c ≠ '0' := by
  induction n using Nat.strongRecOn with
  | ind n ih =>
    rw [Nat.toDigits_eq_if (by decide)]
    by_cases hlt : n < 10
    · rw [if_pos hlt]
      refine ⟨n.digitChar, [], rfl, ?_⟩
      interval_cases n <;> decide
    · obtain ⟨c, rest, heq, hne⟩ := ih (n / 10) (by omega) (by omega)
      rw [if_neg hlt, heq]
      exact ⟨c, rest ++ [(n % 10).digitChar], rfl, hne⟩

lemma isDigit_toDigits (n : ℕ) : ∀ c ∈ Nat.toDigits 10 n, c.isDigit = true := fun _ h =>
  Nat.isDigit_of_mem_toDigits (by decide) (by decide) h

/-- A positive number is written as a numeral, if its digits are not too many. -/
lemma isNumeral_toDigits {limit n : ℕ} (hlimit : 0 < limit) (hpos : 0 < n) :
    isNumeral limit (Nat.toDigits 10 n) = true ↔ n < 10 ^ limit := by
  rw [← Nat.length_toDigits_le_iff (by decide) hlimit]
  have hdigits := isDigit_toDigits n
  obtain ⟨c, rest, heq, hne⟩ := toDigits_head hpos
  rw [heq] at hdigits ⊢
  have hhead : c.isDigit = true := hdigits c List.mem_cons_self
  have htail : rest.all Char.isDigit = true :=
    List.all_eq_true.mpr fun d hd => hdigits d (List.mem_cons_of_mem c hd)
  have hhead' : (c != '0') = true := bne_iff_ne.mpr hne
  rw [isNumeral, hhead, hhead', htail, Bool.and_self, Bool.and_self, Bool.true_and,
    decide_eq_true_iff, List.length_cons, Nat.lt_iff_add_one_le]

/-! ### Ratios -/

/-- Numerator and denominator in lowest terms. -/
def ratioText (q : ℚ) : String :=
  if q.den = 1 then toString q.num else toString q.num ++ "/" ++ toString q.den

/-- The value of a text in the grammar. -/
def readRatio (limit : ℕ) (text : String) : Option ℚ :=
  let numerator := text.toList.takeWhile (· != '/')
  match text.toList.dropWhile (· != '/') with
  | [] =>
    if isNumeral limit numerator then some (Nat.ofDigitChars 10 numerator 0 : ℕ) else none
  | _ :: denominator =>
    if isNumeral limit numerator && isNumeral limit denominator then
      some ((Nat.ofDigitChars 10 numerator 0 : ℕ) / (Nat.ofDigitChars 10 denominator 0 : ℕ))
    else none

/-- A ratio whose terms have at most `limit` digits. -/
def Fits (limit : ℕ) (q : ℚ) : Prop := q.num < 10 ^ limit ∧ q.den < 10 ^ limit

lemma slash_notMem_toDigits (n : ℕ) : ∀ c ∈ Nat.toDigits 10 n, (c != '/') = true := by
  intro c hc
  have hdigit := isDigit_toDigits n c hc
  rw [bne_iff_ne]
  rintro rfl
  simp at hdigit

lemma toList_toString_num {q : ℚ} (hpos : 0 < q) :
    (toString q.num).toList = Nat.toDigits 10 q.num.toNat := by
  obtain ⟨n, hn⟩ := Int.eq_ofNat_of_zero_le (Rat.num_pos.mpr hpos).le
  rw [hn, Int.toNat_natCast]
  exact Nat.toList_repr

/-- A positive ratio that fits is read back from its text, and no other is read at all. -/
theorem readRatio_ratioText {limit : ℕ} (hlimit : 0 < limit) {q : ℚ} (hpos : 0 < q) :
    (Fits limit q → readRatio limit (ratioText q) = some q) ∧
      (¬Fits limit q → readRatio limit (ratioText q) = none) := by
  have hnumPos : 0 < q.num.toNat := by
    have := Rat.num_pos.mpr hpos
    omega
  have hcast : ((q.num.toNat : ℕ) : ℚ) = q.num := by
    have hnum : ((q.num.toNat : ℕ) : ℤ) = q.num := by omega
    exact_mod_cast congrArg (Int.cast (R := ℚ)) hnum
  have hnumFits : q.num < 10 ^ limit ↔ q.num.toNat < 10 ^ limit := by
    constructor
    · intro h
      have hlt : (q.num.toNat : ℤ) < ((10 ^ limit : ℕ) : ℤ) := by
        push_cast
        omega
      exact_mod_cast hlt
    · intro h
      have hlt : (q.num.toNat : ℤ) < ((10 ^ limit : ℕ) : ℤ) := by exact_mod_cast h
      push_cast at hlt
      omega
  have hnum := isNumeral_toDigits hlimit hnumPos
  unfold ratioText readRatio Fits
  by_cases hden : q.den = 1
  · have htake : (Nat.toDigits 10 q.num.toNat).takeWhile (· != '/') =
        Nat.toDigits 10 q.num.toNat := by
      have happend := @List.takeWhile_append_of_pos _ (· != '/') _ []
        (slash_notMem_toDigits q.num.toNat)
      simpa using happend
    have hdrop : (Nat.toDigits 10 q.num.toNat).dropWhile (· != '/') = [] := by
      have happend := @List.dropWhile_append_of_pos _ (· != '/') _ []
        (slash_notMem_toDigits q.num.toNat)
      simpa using happend
    have hvalue : ((q.num.toNat : ℕ) : ℚ) = q := hcast.trans (Rat.coe_int_num_of_den_eq_one hden)
    have hone : 1 < 10 ^ limit := Nat.one_lt_pow (by omega) (by decide)
    rw [if_pos hden, toList_toString_num hpos]
    simp only [htake, hdrop, Nat.ofDigitChars_ten_toDigits, hvalue, hnumFits, hden, hone, and_true]
    exact ⟨fun h => if_pos (hnum.mpr h), fun h => if_neg fun h' => h (hnum.mp h')⟩
  · have hdenFits := isNumeral_toDigits hlimit q.den_pos
    have htext : (toString q.num ++ "/" ++ toString q.den).toList =
        Nat.toDigits 10 q.num.toNat ++ '/' :: Nat.toDigits 10 q.den := by
      rw [String.toList_append, String.toList_append, toList_toString_num hpos, List.append_assoc,
        Nat.toString_eq_repr, Nat.toList_repr]
      simp
    have htake : (Nat.toDigits 10 q.num.toNat ++ '/' :: Nat.toDigits 10 q.den).takeWhile
        (· != '/') = Nat.toDigits 10 q.num.toNat := by
      rw [List.takeWhile_append_of_pos (slash_notMem_toDigits _)]
      simp
    have hdrop : (Nat.toDigits 10 q.num.toNat ++ '/' :: Nat.toDigits 10 q.den).dropWhile
        (· != '/') = '/' :: Nat.toDigits 10 q.den := by
      rw [List.dropWhile_append_of_pos (slash_notMem_toDigits _)]
      simp
    have hvalue : ((q.num.toNat : ℕ) : ℚ) / (q.den : ℕ) = q := by
      rw [hcast]
      exact Rat.num_div_den q
    rw [if_neg hden, htext, htake, hdrop]
    simp only [Nat.ofDigitChars_ten_toDigits, hvalue, hnumFits, ← hnum, ← hdenFits,
      Bool.and_eq_true]
    exact ⟨fun h => if_pos h, fun h => if_neg h⟩

end RatioText
