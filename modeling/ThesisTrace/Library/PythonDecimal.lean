import ThesisTrace.Library.DecimalText

/-!
# Decimal numbers of Python

A `Decimal` is a finite number, an infinity or a NaN. A finite number is a sign, a coefficient and
an exponent of ten, within the bounds of the implementation. Zeros keep their sign and numbers
their trailing zeros, so that different numbers have the same value. `Decimal(text)` reads a
numeric string without rounding.
-/

namespace PythonDecimal
open DecimalText RatioText

/-- The bounds of the numbers of an implementation, and its decimal digits outside ASCII. -/
structure Implementation where
  maxPrec : ℕ
  maxEmax : ℤ
  minEmin : ℤ
  decimalDigit : Char → Option ℕ
  maxPrec_pos : 0 < maxPrec
  maxEmax_nonneg : 0 ≤ maxEmax
  minEmin_nonpos : minEmin ≤ 0

def Implementation.minEtiny (R : Implementation) : ℤ := R.minEmin - (R.maxPrec - 1)

/-- The number of digits of a coefficient. -/
def digitCount (coefficient : ℕ) : ℕ := (Nat.toDigits 10 coefficient).length

/-- The coefficients and exponents that an implementation holds. -/
def Implementation.Admits (R : Implementation) (coefficient : ℕ) (exponent : ℤ) : Prop :=
  digitCount coefficient ≤ R.maxPrec ∧ exponent + (digitCount coefficient - 1) ≤ R.maxEmax ∧
    R.minEtiny ≤ exponent

instance (R : Implementation) (coefficient : ℕ) (exponent : ℤ) :
    Decidable (R.Admits coefficient exponent) :=
  inferInstanceAs (Decidable (_ ∧ _ ∧ _))

/-- The bounds of a build with words of 64 bits. -/
def wordBounds : Implementation where
  maxPrec := 999999999999999999
  maxEmax := 999999999999999999
  minEmin := -999999999999999999
  decimalDigit _ := none
  maxPrec_pos := by decide
  maxEmax_nonneg := by decide
  minEmin_nonpos := by decide

/-- A finite decimal number. -/
structure Number (R : Implementation) where
  negative : Bool
  coefficient : ℕ
  exponent : ℤ
  admits : R.Admits coefficient exponent

inductive Decimal (R : Implementation)
  | finite (number : Number R)
  | infinity (negative : Bool)
  | nan (negative signaling : Bool) (payload : ℕ)

variable {R : Implementation}

/-! ### Values -/

namespace Number

/-- What a comparison with `==` compares. -/
def value (d : Number R) : ℚ := (if d.negative then -1 else 1) * (d.coefficient * 10 ^ d.exponent)

/-- The digits of `as_tuple`. -/
def digits (d : Number R) : List ℕ :=
  (Nat.toDigits 10 d.coefficient).map fun c => c.toNat - '0'.toNat

lemma abs_value (d : Number R) : |d.value| = d.coefficient * 10 ^ d.exponent := by
  have hpos : (0 : ℚ) ≤ d.coefficient * 10 ^ d.exponent :=
    mul_nonneg (Nat.cast_nonneg _) (zpow_pos (by norm_num) _).le
  rw [value, abs_mul, abs_of_nonneg hpos]
  cases d.negative <;> simp

lemma value_eq_zero {d : Number R} : d.value = 0 ↔ d.coefficient = 0 := by
  have hpow : (10 : ℚ) ^ d.exponent ≠ 0 := zpow_ne_zero _ (by norm_num)
  rw [← abs_eq_zero, abs_value, mul_eq_zero, or_iff_left hpow, Nat.cast_eq_zero]

lemma value_neg {d : Number R} (h : d.coefficient ≠ 0) : d.value < 0 ↔ d.negative = true := by
  have hpos : (0 : ℚ) < d.coefficient * 10 ^ d.exponent :=
    mul_pos (Nat.cast_pos.mpr (Nat.pos_of_ne_zero h)) (zpow_pos (by norm_num) _)
  rw [value]
  cases d.negative with
  | true => simpa using hpos
  | false => simpa using hpos.le

lemma isDecimal (d : Number R) : IsDecimal d.value := by
  refine ⟨(if d.negative then -1 else 1) * d.coefficient, d.exponent, ?_⟩
  rw [value, ← mul_assoc]
  cases d.negative <;> simp

end Number

/-! ### Numeric strings -/

/-- `str.isspace` -/
def isSpace (c : Char) : Bool :=
  let code := c.toNat
  (9 ≤ code && code ≤ 13) || (0x1c ≤ code && code ≤ 0x20) || code == 0x85 || code == 0xa0 ||
    code == 0x1680 || (0x2000 ≤ code && code ≤ 0x200a) || code == 0x2028 || code == 0x2029 ||
    code == 0x202f || code == 0x205f || code == 0x3000

def trim (text : List Char) : List Char := (text.dropWhile isSpace).rdropWhile isSpace

/-- The text without the space around it and without underscores, with the digits of other
alphabets in ASCII. -/
def asciiText (R : Implementation) (text : List Char) : Option (List Char) :=
  ((trim text).filter (· != '_')).mapM fun c =>
    if 0 < c.toNat ∧ c.toNat ≤ 127 then some c
    else if isSpace c then some ' '
    else (R.decimalDigit c).map Nat.digitChar

def splitSign : List Char → Bool × List Char
  | '-' :: text => (true, text)
  | '+' :: text => (false, text)
  | text => (false, text)

def readExponent (text : List Char) : Option ℤ :=
  let (negative, digits) := splitSign text
  (readDigits digits).map fun e => if negative then -(e : ℤ) else e

def isIndicator (c : Char) : Bool := c == 'e' || c == 'E'

/-- The coefficient and the exponent of a number without its sign. -/
def readNumber (text : List Char) : Option (ℕ × ℤ) :=
  let mantissa := text.takeWhile (!isIndicator ·)
  let whole := mantissa.takeWhile (· != '.')
  let fraction := (mantissa.dropWhile (· != '.')).tail
  let exponent :=
    match text.dropWhile (!isIndicator ·) with
    | [] => some 0
    | _ :: exponent => readExponent exponent
  (readDigits (whole ++ fraction)).bind fun coefficient =>
    exponent.map fun e => (coefficient, e - fraction.length)

/-- The digits after `nan`. -/
def readPayload (R : Implementation) (digits : List Char) : Option ℕ :=
  if digits = [] then some 0
  else (readDigits digits).filter fun payload => digitCount payload ≤ R.maxPrec

inductive DecimalException
  | invalidOperation
  deriving DecidableEq

/-- `Decimal(text)` -/
def ofText (R : Implementation) (text : String) : Except DecimalException (Decimal R) :=
  match asciiText R text.toList with
  | none => .error .invalidOperation
  | some ascii =>
    let (negative, rest) := splitSign ascii
    match rest.map Char.toLower with
    | ['i', 'n', 'f'] | ['i', 'n', 'f', 'i', 'n', 'i', 't', 'y'] => .ok (.infinity negative)
    | 'n' :: 'a' :: 'n' :: payload =>
      match readPayload R payload with
      | some payload => .ok (.nan negative false payload)
      | none => .error .invalidOperation
    | 's' :: 'n' :: 'a' :: 'n' :: payload =>
      match readPayload R payload with
      | some payload => .ok (.nan negative true payload)
      | none => .error .invalidOperation
    | _ =>
      match readNumber rest with
      | none => .error .invalidOperation
      | some (coefficient, exponent) =>
        if h : R.Admits coefficient exponent then
          .ok (.finite ⟨negative, coefficient, exponent, h⟩)
        else .error .invalidOperation

/-! ### Trailing zeros -/

lemma digitCount_mul_pow {n : ℕ} (hpos : 0 < n) (d : ℕ) :
    digitCount (n * 10 ^ d) = digitCount n + d := by
  rw [digitCount, toDigits_mul_pow hpos, List.length_append, List.length_replicate]
  rfl

/-- A number that is held without rounding is held without its trailing zeros. -/
lemma Implementation.Admits.normal {n d : ℕ} {e : ℤ} (hpos : 0 < n)
    (h : R.Admits (n * 10 ^ d) e) : R.Admits n (e + d) := by
  obtain ⟨hcount, hadjusted, htiny⟩ := h
  rw [digitCount_mul_pow hpos] at hcount hadjusted
  push_cast at hadjusted
  exact ⟨by omega, by omega, by omega⟩

lemma Implementation.admits_zero (R : Implementation) : R.Admits 0 0 := by
  have hcount : digitCount 0 = 1 := by
    rw [digitCount, Nat.toDigits_zero]
    rfl
  have hprec := R.maxPrec_pos
  have hemax := R.maxEmax_nonneg
  have hemin := R.minEmin_nonpos
  rw [Implementation.Admits, hcount, Implementation.minEtiny]
  push_cast
  exact ⟨by omega, by omega, by omega⟩

/-! ### Reading a normal form -/

/-- Characters that are read as they are. -/
def isPlain (c : Char) : Bool := 0x20 < c.toNat && c.toNat ≤ 127 && c != '_'

lemma isPlain_of_isDigit {c : Char} (h : c.isDigit = true) : isPlain c = true := by
  have hne : c ≠ '_' := ne_of_isDigit h (by decide)
  rw [Char.isDigit_iff_toNat] at h
  simp only [Char.reduceToNat] at h
  simp only [isPlain, Bool.and_eq_true, decide_eq_true_eq, bne_iff_ne]
  exact ⟨by omega, hne⟩

lemma isSpace_of_isPlain {c : Char} (h : isPlain c = true) : isSpace c = false := by
  simp only [isPlain, Bool.and_eq_true, decide_eq_true_eq, bne_iff_ne] at h
  simp only [isSpace, Bool.or_eq_false_iff, Bool.and_eq_false_iff, decide_eq_false_iff_not,
    beq_eq_false_iff_ne]
  omega

lemma asciiText_of_isPlain {text : List Char} (h : ∀ c ∈ text, isPlain c = true) :
    asciiText R text = some text := by
  have hspace : ∀ c ∈ text, isSpace c = false := fun c hc => isSpace_of_isPlain (h c hc)
  have htrim : trim text = text := by
    have hfront : text.dropWhile isSpace = text := by
      cases text with
      | nil => rfl
      | cons c text =>
        exact List.dropWhile_cons_of_neg (by rw [hspace c List.mem_cons_self]; decide)
    rw [trim, hfront, List.rdropWhile_eq_self_iff]
    intro hne
    rw [hspace _ (List.getLast_mem hne)]
    decide
  have hkeep : text.filter (· != '_') = text := List.filter_eq_self.mpr fun c hc => by
    have hplain := h c hc
    simp only [isPlain, Bool.and_eq_true] at hplain
    exact hplain.2
  rw [asciiText, htrim, hkeep]
  have hstep : ∀ c ∈ text, (if 0 < c.toNat ∧ c.toNat ≤ 127 then some c
      else if isSpace c then some ' ' else (R.decimalDigit c).map Nat.digitChar) = some c := by
    intro c hc
    have hplain := h c hc
    simp only [isPlain, Bool.and_eq_true, decide_eq_true_eq] at hplain
    exact if_pos (by omega)
  clear h hspace htrim hkeep
  induction text with
  | nil => rfl
  | cons c text ih =>
    rw [List.mapM_cons, hstep c List.mem_cons_self,
      ih fun c hc => hstep c (List.mem_cons_of_mem _ hc)]
    rfl

lemma toLower_of_isDigit {c : Char} (h : c.isDigit = true) : c.toLower = c := by
  rw [Char.isDigit_iff_toNat] at h
  have hupper : ¬(c.val ≥ 'A'.val ∧ c.val ≤ 'Z'.val) := by
    rintro ⟨hlow, -⟩
    have hle : 'A'.toNat ≤ c.toNat := UInt32.le_iff_toNat_le.mp hlow
    simp only [Char.reduceToNat] at h hle
    omega
  exact dif_neg hupper

lemma splitSign_of_isDigit {c : Char} {text : List Char} (h : c.isDigit = true) :
    splitSign (c :: text) = (false, c :: text) := by
  have hminus : c ≠ '-' := ne_of_isDigit h (by decide)
  have hplus : c ≠ '+' := ne_of_isDigit h (by decide)
  rw [splitSign]
  · simpa using hminus
  · simpa using hplus

lemma readExponent_exponentDigits (e : ℤ) : readExponent (exponentDigits e) = some e := by
  have hread : ∀ negative : Bool,
      ((readDigits (Nat.toDigits 10 e.natAbs)).map fun n => if negative then -(n : ℤ) else n) =
        some (if negative then -(e.natAbs : ℤ) else e.natAbs) := fun negative => by
    rw [readDigits_toDigits]
    rfl
  unfold exponentDigits readExponent
  by_cases hsign : 0 ≤ e
  · rw [if_pos hsign]
    exact (hread false).trans (congrArg some (Int.natAbs_of_nonneg hsign))
  · have habs : -(e.natAbs : ℤ) = e := by omega
    rw [if_neg hsign]
    exact (hread true).trans (congrArg some habs)

lemma readNumber_eq (n : ℕ) (e : ℤ) :
    readNumber (Nat.toDigits 10 n ++ 'e' :: exponentDigits e) = some (n, e) := by
  have hdigits := isDigit_toDigits n
  have hother : ∀ c ∈ Nat.toDigits 10 n, (!isIndicator c) = true := fun c hc => by
    have hsmall : c ≠ 'e' := ne_of_isDigit (hdigits c hc) (by decide)
    have hlarge : c ≠ 'E' := ne_of_isDigit (hdigits c hc) (by decide)
    simp [isIndicator, hsmall, hlarge]
  have hpoint : ∀ c ∈ Nat.toDigits 10 n, (c != '.') = true := fun c hc =>
    bne_iff_ne.mpr (ne_of_isDigit (hdigits c hc) (by decide))
  have hwhole : (Nat.toDigits 10 n).takeWhile (· != '.') = Nat.toDigits 10 n :=
    List.takeWhile_eq_self_iff.mpr hpoint
  have hfraction : (Nat.toDigits 10 n).dropWhile (· != '.') = [] :=
    List.dropWhile_eq_nil_iff.mpr hpoint
  have hindicator : isIndicator 'e' = true := rfl
  unfold readNumber
  rw [List.takeWhile_append_of_pos hother, List.dropWhile_append_of_pos hother]
  simp only [hindicator, Bool.not_true, Bool.false_eq_true, not_false_eq_true,
    List.takeWhile_cons_of_neg, List.dropWhile_cons_of_neg, List.append_nil, hwhole, hfraction,
    List.tail_nil, readDigits_toDigits, readExponent_exponentDigits, Option.bind_some,
    Option.map_some, List.length_nil, Nat.cast_zero, sub_zero]

/-- A normal form that the implementation holds is read as it is written. -/
lemma ofText_normal {n : ℕ} {e : ℤ} (negative : Bool) (hadmits : R.Admits n e) :
    ofText R (String.ofList ((if negative then ['-'] else []) ++
      (Nat.toDigits 10 n ++ 'e' :: exponentDigits e))) =
      .ok (.finite ⟨negative, n, e, hadmits⟩) := by
  have hdigits := isDigit_toDigits n
  have hplain : ∀ c ∈ (if negative then ['-'] else []) ++
      (Nat.toDigits 10 n ++ 'e' :: exponentDigits e), isPlain c = true := by
    intro c hc
    have hexponent : ∀ c ∈ exponentDigits e, isPlain c = true := by
      intro c hc
      rcases List.mem_cons.mp hc with rfl | hc
      · split <;> decide
      · exact isPlain_of_isDigit (isDigit_toDigits _ c hc)
    rcases List.mem_append.mp hc with hc | hc
    · cases negative <;> simp at hc
      rw [hc]
      decide
    · rcases List.mem_append.mp hc with hc | hc
      · exact isPlain_of_isDigit (hdigits c hc)
      · rcases List.mem_cons.mp hc with rfl | hc
        · decide
        · exact hexponent c hc
  obtain ⟨x, rest, hcons⟩ := List.exists_cons_of_ne_nil (Nat.toDigits_ne_nil (n := n) (b := 10))
  have hx : x.isDigit = true := hdigits x (by rw [hcons]; exact List.mem_cons_self)
  have hsplit : splitSign ((if negative then ['-'] else []) ++
      (Nat.toDigits 10 n ++ 'e' :: exponentDigits e)) =
      (negative, Nat.toDigits 10 n ++ 'e' :: exponentDigits e) := by
    cases negative with
    | true => rfl
    | false =>
      rw [hcons]
      exact splitSign_of_isDigit hx
  have hletters : ∀ c : Char, c.isDigit = false → c ≠ x.toLower := fun c hc => by
    rw [toLower_of_isDigit hx]
    exact (ne_of_isDigit hx hc).symm
  have hi := hletters 'i' (by decide)
  have hn := hletters 'n' (by decide)
  have hs := hletters 's' (by decide)
  unfold ofText
  rw [String.toList_ofList, asciiText_of_isPlain hplain]
  dsimp only
  rw [hsplit]
  dsimp only
  rw [readNumber_eq]
  dsimp only
  rw [dif_pos hadmits]
  split
  · next h => simp [hcons, hi.symm] at h
  · next h => simp [hcons, hi.symm] at h
  · next h => simp [hcons, hn.symm] at h
  · next h => simp [hcons, hs.symm] at h
  · rfl

end PythonDecimal
