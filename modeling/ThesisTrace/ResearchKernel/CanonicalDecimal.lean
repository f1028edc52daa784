import ThesisTrace.Library.PythonDecimal
import ThesisTrace.Library.Transaction

/-!
# Canonical texts of decimal numbers

`canonical_decimal` writes a finite number as its digits without trailing zeros and its exponent.
Equal numbers have one text, which is read back as a number of the same value.
-/

namespace ThesisTrace.ResearchKernel
open PythonDecimal Transaction DecimalText RatioText

variable {R : Implementation}

inductive NumericContractError
  /-- decimal value must be finite -/
  | notFinite
  deriving DecidableEq, Repr

def requireFiniteDecimal : Decimal R → Except NumericContractError (Number R)
  | .finite number => .ok number
  | _ => .error .notFinite

/-- The loop that pops zeros, on the digits from the last to the first. -/
def popZeros : List ℕ → ℤ → List ℕ × ℤ
  | 0 :: digits, exponent => popZeros digits (exponent + 1)
  | digits, exponent => (digits, exponent)

/-- `canonical_decimal` -/
def canonicalDecimal (value : Decimal R) : Except NumericContractError String := do
  let finite ← requireFiniteDecimal value
  if finite.coefficient = 0 then pure "0"
  else
    let (digits, exponent) := popZeros finite.digits.reverse finite.exponent
    let coefficient :=
      (digits.reverse.flatMap fun digit => (toString digit).toList).dropWhile (· == '0')
    if coefficient.isEmpty then pure "0"
    else
      let sign := if finite.negative then "-" else ""
      let exponentText := if 0 ≤ exponent then "+" ++ toString exponent else toString exponent
      pure (sign ++ String.ofList coefficient ++ "e" ++ exponentText)

/-! ### The text of a number -/

lemma toString_digit {c : Char} (h : c.isDigit = true) :
    (toString (c.toNat - '0'.toNat)).toList = [c] := by
  rw [Char.isDigit_iff_toNat] at h
  simp only [Char.reduceToNat] at h ⊢
  have hchar : (c.toNat - 48).digitChar = c := by
    apply Char.toNat_inj.mp
    rw [Nat.toNat_digitChar_of_lt_ten (by omega)]
    omega
  rw [Nat.toString_eq_repr, Nat.toList_repr, Nat.toDigits_of_lt_base (by omega), hchar]

/-- The digits of a number are written as its numeral. -/
lemma flatMap_digits {text : List Char} (h : ∀ c ∈ text, c.isDigit = true) :
    ((text.map fun c => c.toNat - '0'.toNat).flatMap fun digit => (toString digit).toList) =
      text := by
  induction text with
  | nil => rfl
  | cons c text ih =>
    rw [List.map_cons, List.flatMap_cons, toString_digit (h c List.mem_cons_self),
      ih fun c hc => h c (List.mem_cons_of_mem _ hc)]
    rfl

lemma popZeros_replicate {digits : List ℕ} (h : digits.head? ≠ some 0) (k : ℕ) (exponent : ℤ) :
    popZeros (List.replicate k 0 ++ digits) exponent = (digits, exponent + k) := by
  induction k generalizing exponent with
  | zero =>
    rw [List.replicate_zero, List.nil_append, Nat.cast_zero, add_zero]
    cases digits with
    | nil => rfl
    | cons digit digits =>
      cases digit with
      | zero => exact absurd rfl h
      | succ digit => rfl
  | succ k ih =>
    rw [List.replicate_succ, List.cons_append, popZeros, ih]
    congr 1
    push_cast
    ring

lemma toList_exponentText (e : ℤ) :
    (if 0 ≤ e then "+" ++ toString e else toString e).toList = exponentDigits e := by
  unfold exponentDigits
  by_cases hsign : 0 ≤ e
  · obtain ⟨n, rfl⟩ := Int.eq_ofNat_of_zero_le hsign
    rw [if_pos hsign, if_pos hsign, String.toList_append]
    exact congrArg ('+' :: ·) Nat.toList_repr
  · obtain ⟨n, hn⟩ := Int.eq_negSucc_of_lt_zero (not_le.mp hsign)
    rw [if_neg hsign, if_neg hsign, hn]
    have hneg : toString (Int.negSucc n) = "-" ++ (n + 1).repr := rfl
    rw [hneg, String.toList_append, Nat.toList_repr]
    rfl

/-- The text of a number from its normal form. -/
lemma canonicalDecimal_normal {d : Number R} {n k : ℕ} (hlast : n % 10 ≠ 0)
    (hcoefficient : d.coefficient = n * 10 ^ k) :
    canonicalDecimal (.finite d) = .ok (String.ofList ((if d.negative then ['-'] else []) ++
      (Nat.toDigits 10 n ++ 'e' :: exponentDigits (d.exponent + k)))) := by
  have hpos : 0 < n := Nat.pos_of_ne_zero fun hzero => hlast (by rw [hzero])
  have hne : d.coefficient ≠ 0 := by
    rw [hcoefficient]
    positivity
  have hpopped : popZeros d.digits.reverse d.exponent =
      (((Nat.toDigits 10 n).map fun c => c.toNat - '0'.toNat).reverse, d.exponent + k) := by
    have hdigits : d.digits.reverse = List.replicate k 0 ++
        ((Nat.toDigits 10 n).map fun c => c.toNat - '0'.toNat).reverse := by
      rw [Number.digits, hcoefficient, toDigits_mul_pow hpos, List.map_append,
        List.map_replicate, List.reverse_append, List.reverse_replicate]
      rfl
    rw [hdigits, popZeros_replicate]
    obtain ⟨digits, hlastDigit⟩ := toDigits_eq_append_last n
    have hlt : n % 10 < 10 := Nat.mod_lt _ (by decide)
    have hdigit : (n % 10).digitChar.toNat - '0'.toNat = n % 10 :=
      Nat.toNat_digitChar_sub_48_of_lt_ten hlt
    rw [hlastDigit, List.map_append, List.reverse_append, List.map_singleton,
      List.reverse_singleton, List.singleton_append, List.head?_cons, hdigit]
    exact fun h => hlast (Option.some.inj h)
  obtain ⟨x, rest, hcons, hx⟩ := toDigits_head hpos
  have hstripped : (Nat.toDigits 10 n).dropWhile (· == '0') = Nat.toDigits 10 n := by
    rw [hcons, List.dropWhile_cons_of_neg]
    simpa using hx
  have hnonempty : (Nat.toDigits 10 n).isEmpty = false := by
    rw [hcons]
    rfl
  unfold canonicalDecimal requireFiniteDecimal
  rw [ok_bind, if_neg hne, hpopped]
  dsimp only
  rw [List.reverse_reverse, flatMap_digits (isDigit_toDigits n), hstripped, hnonempty]
  rw [if_neg Bool.false_ne_true]
  refine congrArg Except.ok (String.toList_inj.mp ?_)
  rw [String.toList_append, String.toList_append, String.toList_append, toList_exponentText,
    String.toList_ofList, String.toList_ofList]
  cases d.negative <;> simp

/-- The text depends on the value alone, and is the canonical text of that value. -/
lemma canonicalDecimal_value (d : Number R) :
    canonicalDecimal (.finite d) = .ok (DecimalText.canonicalDecimal d.value) := by
  by_cases hzero : d.coefficient = 0
  · have htext : DecimalText.canonicalDecimal d.value = "0" := if_pos (d.value_eq_zero.mpr hzero)
    rw [htext]
    unfold canonicalDecimal requireFiniteDecimal
    rw [ok_bind, if_pos hzero]
    rfl
  · obtain ⟨n, k, hkept⟩ := exists_kept (Nat.pos_of_ne_zero hzero)
    have hvalue : |d.value| = n * 10 ^ (d.exponent + k) := by
      rw [d.abs_value, hkept.coefficient, zpow_add₀ (by norm_num), zpow_natCast]
      push_cast
      ring
    rw [canonicalDecimal_normal hkept.last hkept.coefficient]
    refine congrArg Except.ok (String.toList_inj.mp ?_)
    rw [String.toList_ofList, toList_canonicalDecimal_of_normal hkept.last hvalue,
      List.append_assoc]
    simp only [Number.value_neg hzero]

/-! ### Reading a text back -/

/-- The text of a value is read as a number of that value. -/
lemma ofText_canonicalDecimal (d : Number R) :
    ∃ d' : Number R, ofText R (DecimalText.canonicalDecimal d.value) = .ok (.finite d') ∧
      d'.value = d.value := by
  by_cases hzero : d.coefficient = 0
  · have hvalue := Number.value_eq_zero.mpr hzero
    have htext : DecimalText.canonicalDecimal d.value = "0" := if_pos hvalue
    refine ⟨⟨false, 0, 0, R.admits_zero⟩, ?_, ?_⟩
    · rw [htext]
      exact dif_pos R.admits_zero
    · rw [hvalue]
      exact Number.value_eq_zero.mpr rfl
  · obtain ⟨n, k, hkept⟩ := exists_kept (Nat.pos_of_ne_zero hzero)
    have hpos : 0 < n := Nat.pos_of_ne_zero fun h => hkept.last (by rw [h])
    have hadmits : R.Admits n (d.exponent + k) := by
      have hheld := d.admits
      rw [hkept.coefficient] at hheld
      exact hheld.normal hpos
    refine ⟨⟨d.negative, n, d.exponent + k, hadmits⟩, ?_, ?_⟩
    · have htext := canonicalDecimal_normal hkept.last hkept.coefficient
      rw [canonicalDecimal_value] at htext
      rw [Except.ok.inj htext]
      exact ofText_normal d.negative hadmits
    · rw [Number.value, Number.value, hkept.coefficient, zpow_add₀ (by norm_num), zpow_natCast]
      push_cast
      ring

/-- The canonical texts stand for the values of the finite numbers one to one. A text is read back
as a number of the same value, whose text it is again. -/
theorem canonical_decimal_bijective (R : Implementation) :
    (∀ d : Number R, ∃ (text : String) (d' : Number R),
      canonicalDecimal (.finite d) = .ok text ∧ ofText R text = .ok (.finite d') ∧
        d'.value = d.value ∧ canonicalDecimal (.finite d') = .ok text) ∧
    ∀ d d' : Number R, canonicalDecimal (.finite d) = canonicalDecimal (.finite d') ↔
      d.value = d'.value := by
  refine ⟨fun d => ?_, fun d d' => ?_⟩
  · obtain ⟨d', hread, hvalue⟩ := ofText_canonicalDecimal d
    refine ⟨_, d', canonicalDecimal_value d, hread, hvalue, ?_⟩
    rw [canonicalDecimal_value, hvalue]
  · rw [canonicalDecimal_value, canonicalDecimal_value, Except.ok.injEq]
    exact ⟨canonicalDecimal_inj d.isDecimal d'.isDecimal, congrArg DecimalText.canonicalDecimal⟩

/-- A negative zero and a number with trailing zeros and the largest exponent. -/
example :
    canonicalDecimal (R := wordBounds) (.finite ⟨true, 0, -3, by decide⟩) = .ok "0" ∧
    canonicalDecimal (R := wordBounds) (.finite ⟨true, 1200, 999999999999999996, by decide⟩) =
      .ok "-12e+999999999999999998" := by
  decide

end ThesisTrace.ResearchKernel
