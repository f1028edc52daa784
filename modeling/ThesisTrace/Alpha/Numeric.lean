import Mathlib.Algebra.Order.Ring.Abs
import Mathlib.Algebra.Order.Ring.Int
import Mathlib.Algebra.Order.Ring.Cast
import Mathlib.Data.Rat.Defs
import Mathlib.Algebra.Order.Field.Rat
import ThesisTrace.Library.Transaction

/-!
# Numbers of the alpha evaluators

The columnar evaluator computes with binary64 numbers only. The row evaluator computes with Python
numbers: an integer literal stays an integer until something converts it.
-/

namespace ThesisTrace.Alpha

/-- Products of two integers below the limit are finite binary64 numbers. -/
def integerLimit : ℕ := 2 ^ 511

/-- Binary64 numbers up to the sign of zero. Every operation is uninterpreted except on integers
that binary64 represents. -/
class Numeric (F : Type) where
  isFinite : F → Bool
  /-- The exact value of a finite number. -/
  toRat : F → ℚ
  /-- The nearest number; not finite where it overflows. -/
  ofRat : ℚ → F
  nan : F
  neg : F → F
  abs : F → F
  log : F → F
  sqrt : F → F
  add : F → F → F
  sub : F → F → F
  mul : F → F → F
  div : F → F → F
  /-- `sum` of a list. -/
  sum : List F → F
  /-- `math.fsum`; nothing where it overflows. -/
  fsum : List F → Option F
  /-- `math.frexp(value)[1]`. -/
  frexpExponent : F → ℤ
  ldexp : F → ℤ → F
  isFinite_nan : isFinite nan = false
  isFinite_ofRat : ∀ q : ℚ, |q| < integerLimit * integerLimit → isFinite (ofRat q) = true
  isFinite_sqrt : ∀ x, isFinite x = true → 0 ≤ toRat x → isFinite (sqrt x) = true
  /-- An average rank among `n + 1` values is a fraction between zero and one. -/
  isFinite_rank : ∀ k n : ℕ, 0 < n → k ≤ 2 * n →
    isFinite (div (div (ofRat k) (ofRat 2)) (ofRat n)) = true
  toRat_zero : toRat (ofRat 0) = 0
  toRat_one : toRat (ofRat 1) = 1
  toRat_neg : ∀ x, isFinite x = true → toRat (neg x) = -toRat x
  neg_ofRat : ∀ n : ℤ, neg (ofRat n) = ofRat (-n : ℤ)
  abs_ofRat : ∀ n : ℤ, abs (ofRat n) = ofRat (|n| : ℤ)
  add_ofRat : ∀ a b : ℤ, toRat (ofRat a) = a → toRat (ofRat b) = b →
    add (ofRat a) (ofRat b) = ofRat (a + b : ℤ)
  sub_ofRat : ∀ a b : ℤ, toRat (ofRat a) = a → toRat (ofRat b) = b →
    sub (ofRat a) (ofRat b) = ofRat (a - b : ℤ)
  mul_ofRat : ∀ a b : ℤ, toRat (ofRat a) = a → toRat (ofRat b) = b →
    mul (ofRat a) (ofRat b) = ofRat (a * b : ℤ)
  div_ofRat : ∀ a b : ℤ, toRat (ofRat a) = a → toRat (ofRat b) = b → b ≠ 0 →
    div (ofRat a) (ofRat b) = ofRat (a / b : ℚ)

inductive EvaluationError
  | overflow
  | misaligned
  | violatedSignature
  | needsCrossSection
  | needsMarketContext
  | unknownMember
  | malformedPlan
  deriving DecidableEq, Repr

open Numeric Transaction

variable {F : Type} [Numeric F]

def ofInt (n : ℤ) : F := ofRat n

def ofBool (b : Bool) : F := ofInt (if b then 1 else 0)

def finite (x : F) : Option F := if isFinite x then some x else none

lemma finite_eq_some {x y : F} : finite x = some y ↔ isFinite x = true ∧ x = y := by
  unfold finite
  split <;> simp_all

lemma isFinite_of_finite {x y : F} (h : finite x = some y) : isFinite y = true := by
  obtain ⟨hfinite, rfl⟩ := finite_eq_some.mp h
  exact hfinite

lemma finite_of_isFinite {x : F} (h : isFinite x = true) : finite x = some x :=
  finite_eq_some.mpr ⟨h, rfl⟩

@[simp] lemma finite_nan : finite (nan : F) = none := by
  simp [finite, isFinite_nan]

lemma isFinite_ofInt {n : ℤ} (h : |n| < integerLimit * integerLimit) : isFinite (ofInt n : F) = true := by
  apply isFinite_ofRat
  rw [← Int.cast_abs]
  exact_mod_cast h

lemma one_lt_integerLimit : 1 < integerLimit := by
  have hpow : ∀ n, 0 < n → 1 < 2 ^ n := fun n hn => Nat.one_lt_two_pow hn.ne'
  exact hpow 511 (by decide)

/-- Zero, one and minus one are finite. -/
lemma isFinite_ofInt_of_abs_le_one {n : ℤ} (h : |n| ≤ 1) : isFinite (ofInt n : F) = true := by
  apply isFinite_ofInt
  have hone := one_lt_integerLimit
  have hlimit : 1 < integerLimit * integerLimit :=
    one_lt_mul_of_lt_of_le hone hone.le
  exact lt_of_le_of_lt h (by exact_mod_cast hlimit)

/-- A Python number. -/
inductive Item (F : Type)
  | int (n : ℤ)
  | float (x : F)
  deriving DecidableEq

namespace Item

/-- `float(item)`; an integer that is too large gives a number that is not finite. -/
def toFloat : Item F → F
  | int n => ofInt n
  | float x => x

/-- The exact value, which Python compares. -/
def value : Item F → ℚ
  | int n => n
  | float x => toRat x

/-- `math.isfinite(item)`; an integer that is too large raises. -/
def isFinite : Item F → Except EvaluationError Bool
  | int n => do
    require (Numeric.isFinite (ofInt n : F) = true) .overflow
    return true
  | float x => return Numeric.isFinite x

/-- `_finite`. -/
def finite (item : Item F) : Except EvaluationError (Option (Item F)) := do
  return if ← item.isFinite then some item else none

/-- `_finite_or_missing`: the result is a float. -/
def finiteOrMissing (item : Item F) : Except EvaluationError (Option (Item F)) := do
  return if ← item.isFinite then some (float item.toFloat) else none

def neg : Item F → Item F
  | int n => int (-n)
  | float x => float (Numeric.neg x)

def abs : Item F → Item F
  | int n => int |n|
  | float x => float (Numeric.abs x)

/-- Exact on two integers, else in binary64. -/
def arithmetic (exact : ℤ → ℤ → ℤ) (operation : F → F → F) : Item F → Item F → Item F
  | int a, int b => int (exact a b)
  | x, y => float (operation x.toFloat y.toFloat)

def add : Item F → Item F → Item F := arithmetic (· + ·) Numeric.add
def sub : Item F → Item F → Item F := arithmetic (· - ·) Numeric.sub
def mul : Item F → Item F → Item F := arithmetic (· * ·) Numeric.mul

/-- True division rounds the exact quotient of two integers once. -/
def div : Item F → Item F → F
  | int a, int b => ofRat (a / b : ℚ)
  | x, y => Numeric.div x.toFloat y.toFloat

end Item

/-- Integers that binary64 holds exactly, small enough for their products to be finite. -/
def Representable (F : Type) [Numeric F] (n : ℤ) : Prop :=
  toRat (ofInt n : F) = n ∧ |n| < integerLimit

end ThesisTrace.Alpha
