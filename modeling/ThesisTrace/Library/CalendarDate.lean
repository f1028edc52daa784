import Mathlib.Data.Nat.Digits.Defs
import Mathlib.Data.Prod.Lex
import Mathlib.Data.String.Basic

/-!
# Calendar dates

Dates of the proleptic Gregorian calendar from year 1 to year 9999, their numbers in the order of
days and their texts of eight digits. Texts of one width are in the order of their dates.
-/

namespace CalendarDate

def isLeap (year : ℕ) : Bool := year % 4 = 0 && (year % 100 ≠ 0 || year % 400 = 0)

def daysInMonth (year month : ℕ) : ℕ :=
  if month = 2 then if isLeap year then 29 else 28
  else if month = 4 ∨ month = 6 ∨ month = 9 ∨ month = 11 then 30
  else 31

def IsDate (year month day : ℕ) : Prop :=
  (1 ≤ year ∧ year ≤ 9999) ∧ (1 ≤ month ∧ month ≤ 12) ∧ 1 ≤ day ∧ day ≤ daysInMonth year month

instance (year month day : ℕ) : Decidable (IsDate year month day) :=
  inferInstanceAs (Decidable (_ ∧ _ ∧ _))

end CalendarDate

structure CalendarDate where
  year : ℕ
  month : ℕ
  day : ℕ
  valid : CalendarDate.IsDate year month day
  deriving DecidableEq

namespace CalendarDate

def ofNumbers (year month day : ℕ) : Option CalendarDate :=
  if h : IsDate year month day then some ⟨year, month, day, h⟩ else none

/-- Year, month and day in their order -/
def key (date : CalendarDate) : ℕ ×ₗ (ℕ ×ₗ ℕ) :=
  toLex (date.year, toLex (date.month, date.day))

lemma key_injective : Function.Injective key := by
  rintro ⟨y, m, d, h⟩ ⟨y', m', d', h'⟩ heq
  simpa [key] using heq

instance : LinearOrder CalendarDate := LinearOrder.lift' key key_injective

lemma lt_iff {a b : CalendarDate} : a < b ↔ a.year < b.year ∨ a.year = b.year ∧
    (a.month < b.month ∨ a.month = b.month ∧ a.day < b.day) := by
  change key a < key b ↔ _
  simp [key, Prod.Lex.toLex_lt_toLex]

/-! ### Numbers of days -/

def daysBeforeYear (year : ℕ) : ℕ :=
  (year - 1) * 365 + (year - 1) / 4 - (year - 1) / 100 + (year - 1) / 400

/-- The days of the first months of a year -/
def daysOfMonths (year : ℕ) : ℕ → ℕ
  | 0 => 0
  | month + 1 => daysOfMonths year month + daysInMonth year (month + 1)

/-- The number of a date; the first one is 1. -/
def ordinal (date : CalendarDate) : ℕ :=
  daysBeforeYear date.year + daysOfMonths date.year (date.month - 1) + date.day

lemma daysOfMonths_twelve (year : ℕ) :
    daysOfMonths year 12 = if isLeap year then 366 else 365 := by
  cases hleap : isLeap year <;> simp [daysOfMonths, daysInMonth, hleap]

lemma daysOfMonths_mono (year : ℕ) {m m' : ℕ} (h : m ≤ m') :
    daysOfMonths year m ≤ daysOfMonths year m' := by
  induction h with
  | refl => exact Nat.le_refl _
  | step _ ih => exact ih.trans (Nat.le_add_right _ _)

lemma daysBeforeYear_succ {year : ℕ} (h : 1 ≤ year) :
    daysBeforeYear (year + 1) = daysBeforeYear year + daysOfMonths year 12 := by
  obtain ⟨y, rfl⟩ := Nat.exists_eq_add_of_le' h
  have hcenturies : y / 100 ≤ y / 4 := Nat.div_le_div_left (by decide) (by decide)
  have hleap : isLeap (y + 1) = decide (4 ∣ y + 1 ∧ (¬100 ∣ y + 1 ∨ 400 ∣ y + 1)) := by
    simp [isLeap, Nat.dvd_iff_mod_eq_zero]
  rw [daysOfMonths_twelve, hleap]
  unfold daysBeforeYear
  rw [Nat.add_sub_cancel, Nat.add_sub_cancel, @Nat.succ_div y 4, @Nat.succ_div y 100,
    @Nat.succ_div y 400]
  -- the quotients are no longer divided
  generalize y / 4 = fours at hcenturies ⊢
  generalize y / 100 = centuries at hcenturies ⊢
  by_cases h4 : 4 ∣ y + 1
  · by_cases h100 : 100 ∣ y + 1
    · by_cases h400 : 400 ∣ y + 1
      · simp only [h4, h100, h400, if_true, not_true, false_or, and_true, decide_true]
        generalize y / 400 = rest
        omega
      · simp only [h4, h100, h400, if_true, if_false, not_true, or_false, and_false, decide_false,
          Bool.false_eq_true]
        generalize y / 400 = rest
        omega
    · have h400 : ¬400 ∣ y + 1 := fun h400 => h100 (dvd_trans (by decide) h400)
      simp only [h4, h100, h400, if_true, if_false, not_false_iff, true_or, and_true, decide_true]
      generalize y / 400 = rest
      omega
  · have h100 : ¬100 ∣ y + 1 := fun h100 => h4 (dvd_trans (by decide) h100)
    have h400 : ¬400 ∣ y + 1 := fun h400 => h100 (dvd_trans (by decide) h400)
    simp only [h4, h100, h400, if_false, false_and, decide_false, Bool.false_eq_true]
    generalize y / 400 = rest
    omega

lemma daysBeforeYear_mono {year year' : ℕ} (hpos : 1 ≤ year) (h : year ≤ year') :
    daysBeforeYear year ≤ daysBeforeYear year' := by
  induction h with
  | refl => exact Nat.le_refl _
  | step hle ih =>
    rw [daysBeforeYear_succ (hpos.trans hle)]
    exact ih.trans (Nat.le_add_right _ _)

lemma day_le_daysOfMonths (date : CalendarDate) :
    daysOfMonths date.year (date.month - 1) + date.day ≤ daysOfMonths date.year date.month := by
  obtain ⟨-, ⟨hmonth, -⟩, -, hday⟩ := date.valid
  conv_rhs => rw [← Nat.sub_add_cancel hmonth, daysOfMonths, Nat.sub_add_cancel hmonth]
  omega

lemma ordinal_lt {a b : CalendarDate} (h : a < b) : ordinal a < ordinal b := by
  obtain ⟨⟨hyear, -⟩, ⟨-, hmonth⟩, -⟩ := a.valid
  obtain ⟨-, ⟨hmonth', -⟩, hday', -⟩ := b.valid
  have hday := day_le_daysOfMonths a
  unfold ordinal
  rcases lt_iff.mp h with hlt | ⟨hsame, hlt | ⟨hsame', hlt⟩⟩
  · have hmonths := daysOfMonths_mono a.year hmonth
    have hnext := daysBeforeYear_succ hyear
    have hyears := daysBeforeYear_mono (Nat.le_add_left 1 a.year) (Nat.succ_le_of_lt hlt)
    omega
  · have hmonths := daysOfMonths_mono a.year (Nat.le_sub_one_of_lt hlt)
    rw [← hsame]
    omega
  · rw [← hsame, ← hsame']
    omega

lemma ordinal_lt_iff {a b : CalendarDate} : ordinal a < ordinal b ↔ a < b := by
  refine ⟨fun h => ?_, ordinal_lt⟩
  by_contra hnot
  rcases (not_lt.mp hnot).lt_or_eq with hlt | rfl
  · exact absurd h (ordinal_lt hlt).asymm
  · exact absurd h (lt_irrefl _)

lemma ordinal_le_iff {a b : CalendarDate} : ordinal a ≤ ordinal b ↔ a ≤ b := by
  rw [← not_lt, ordinal_lt_iff, not_lt]

lemma ordinal_injective : Function.Injective ordinal := fun _ _ h =>
  le_antisymm (ordinal_le_iff.mp h.le) (ordinal_le_iff.mp h.ge)

/-! ### Later days -/

/-- The day after a date; there is none after the last day of year 9999. -/
def tomorrow (date : CalendarDate) : Option CalendarDate :=
  if date.day < daysInMonth date.year date.month then
    ofNumbers date.year date.month (date.day + 1)
  else if date.month < 12 then ofNumbers date.year (date.month + 1) 1
  else ofNumbers (date.year + 1) 1 1

def addDays : ℕ → CalendarDate → Option CalendarDate
  | 0, date => some date
  | n + 1, date => (addDays n date).bind tomorrow

lemma ofNumbers_eq_some_iff {year month day : ℕ} {date : CalendarDate} :
    ofNumbers year month day = some date ↔
      date.year = year ∧ date.month = month ∧ date.day = day := by
  obtain ⟨y, m, d, h⟩ := date
  unfold ofNumbers
  constructor
  · intro hsome
    split at hsome
    · cases hsome
      exact ⟨rfl, rfl, rfl⟩
    · cases hsome
  · rintro ⟨rfl, rfl, rfl⟩
    exact dif_pos h

lemma ofNumbers_eq_none_iff {year month day : ℕ} :
    ofNumbers year month day = none ↔ ¬ IsDate year month day := by
  unfold ofNumbers
  split <;> simp_all

lemma ordinal_tomorrow {date next : CalendarDate} (h : tomorrow date = some next) :
    ordinal next = ordinal date + 1 := by
  obtain ⟨⟨hyear, -⟩, ⟨hmonth, hmonth'⟩, -, hday⟩ := date.valid
  unfold tomorrow at h
  unfold ordinal
  split at h
  · obtain ⟨hy, hm, hd⟩ := ofNumbers_eq_some_iff.mp h
    rw [hy, hm, hd]
    omega
  next hend =>
  have hlast : date.day = daysInMonth date.year date.month := by omega
  have hmonths : daysOfMonths date.year date.month =
      daysOfMonths date.year (date.month - 1) + date.day := by
    conv_lhs => rw [← Nat.sub_add_cancel hmonth, daysOfMonths, Nat.sub_add_cancel hmonth]
    rw [hlast]
  split at h
  · obtain ⟨hy, hm, hd⟩ := ofNumbers_eq_some_iff.mp h
    rw [hy, hm, hd, Nat.add_sub_cancel]
    omega
  next htwelve =>
  obtain ⟨hy, hm, hd⟩ := ofNumbers_eq_some_iff.mp h
  have hsame : date.month = 12 := by omega
  rw [hsame] at hmonths
  have hnext := daysBeforeYear_succ hyear
  have hzero : daysOfMonths (date.year + 1) (1 - 1) = 0 := rfl
  rw [hy, hm, hd, hsame, hnext, hzero]
  omega

/-- Only the last date has no day after it. -/
lemma le_of_tomorrow_eq_none {date : CalendarDate} (h : tomorrow date = none)
    (other : CalendarDate) : other ≤ date := by
  obtain ⟨⟨hyear, hyear'⟩, ⟨hmonth, hmonth'⟩, hday, hday'⟩ := date.valid
  obtain ⟨⟨-, hother⟩, ⟨-, hotherMonth⟩, -, hotherDay⟩ := other.valid
  unfold tomorrow at h
  split at h
  · next hlt =>
    exact absurd ⟨⟨hyear, hyear'⟩, ⟨hmonth, hmonth'⟩, by omega, hlt⟩ (ofNumbers_eq_none_iff.mp h)
  next hend =>
  split at h
  · next hlt =>
    have hdays : 1 ≤ daysInMonth date.year (date.month + 1) := by
      unfold daysInMonth
      split_ifs <;> omega
    exact absurd ⟨⟨hyear, hyear'⟩, ⟨by omega, hlt⟩, le_refl _, hdays⟩
      (ofNumbers_eq_none_iff.mp h)
  next htwelve =>
  have hlast : date.year = 9999 := by
    by_contra hne
    exact absurd ⟨⟨by omega, by omega⟩, ⟨le_refl _, by omega⟩, le_refl _, by simp [daysInMonth]⟩
      (ofNumbers_eq_none_iff.mp h)
  rw [← not_lt, lt_iff]
  have hsame : date.month = 12 := by omega
  have hdec : daysInMonth date.year 12 = 31 := by simp [daysInMonth]
  rintro (hlt | ⟨-, hlt | ⟨hsame', hlt⟩⟩)
  · omega
  · omega
  · rw [← hsame', hsame] at hotherDay
    have hdec' : daysInMonth other.year 12 = 31 := by simp [daysInMonth]
    rw [hsame, hdec] at hend
    omega

lemma ordinal_addDays {n : ℕ} {date later : CalendarDate} (h : addDays n date = some later) :
    ordinal later = ordinal date + n := by
  induction n generalizing later with
  | zero =>
    cases h
    rfl
  | succ n ih =>
    obtain ⟨before, hbefore, hnext⟩ := Option.bind_eq_some_iff.mp h
    rw [ordinal_tomorrow hnext, ih hbefore, Nat.add_assoc]

/-- The days up to a date that exists exist. -/
lemma exists_addDays {n : ℕ} {date last : CalendarDate} (h : ordinal date + n ≤ ordinal last) :
    ∃ later, addDays n date = some later := by
  induction n with
  | zero => exact ⟨date, rfl⟩
  | succ n ih =>
    obtain ⟨before, hbefore⟩ := ih (by omega)
    cases hnext : tomorrow before with
    | some later => exact ⟨later, by rw [addDays, hbefore, Option.bind_some, hnext]⟩
    | none =>
      have hle := ordinal_le_iff.mpr (le_of_tomorrow_eq_none hnext last)
      rw [ordinal_addDays hbefore] at hle
      omega

/-! ### Texts of eight digits -/

/-- A number with leading zeros up to a width -/
def digits : ℕ → ℕ → List Char
  | 0, _ => []
  | width + 1, n => Nat.digitChar (n / 10 ^ width) :: digits width (n % 10 ^ width)

lemma length_digits (width n : ℕ) : (digits width n).length = width := by
  induction width generalizing n with
  | zero => rfl
  | succ width ih => rw [digits, List.length_cons, ih]

lemma digitChar_lt {a b : ℕ} (hb : b < 10) (h : a < b) : Nat.digitChar a < Nat.digitChar b := by
  have hall : ∀ b < 10, ∀ a < b, Nat.digitChar a < Nat.digitChar b := by decide
  exact hall b hb a h

lemma digits_lt {width a b : ℕ} (hb : b < 10 ^ width) (h : a < b) :
    digits width a < digits width b := by
  induction width generalizing a b with
  | zero => omega
  | succ width ih =>
    have hpos : 0 < 10 ^ width := Nat.pow_pos (by decide)
    have hten : b / 10 ^ width < 10 := by
      rw [Nat.div_lt_iff_lt_mul hpos, ← Nat.pow_succ']
      exact hb
    rcases (Nat.div_le_div_right h.le : a / 10 ^ width ≤ b / 10 ^ width).lt_or_eq with hlt | heq
    · exact List.cons_lt_cons_iff.mpr (.inl (digitChar_lt hten hlt))
    · rw [digits, digits, heq]
      refine List.cons_lt_cons_iff.mpr (.inr ⟨rfl, ih (Nat.mod_lt _ hpos) ?_⟩)
      have ha := Nat.div_add_mod a (10 ^ width)
      have hb := Nat.div_add_mod b (10 ^ width)
      rw [heq] at ha
      omega

/-- Texts with heads of one length are compared by their heads first. -/
lemma append_lt_append {a b : List Char} (hlength : a.length = b.length) (h : a < b)
    (c d : List Char) : a ++ c < b ++ d := by
  induction a generalizing b with
  | nil =>
    cases b with
    | nil => exact absurd h (lt_irrefl _)
    | cons _ _ => cases hlength
  | cons x a ih =>
    cases b with
    | nil => cases hlength
    | cons y b =>
      rcases List.cons_lt_cons_iff.mp h with hlt | ⟨rfl, hlt⟩
      · exact List.cons_lt_cons_iff.mpr (.inl hlt)
      · exact List.cons_lt_cons_iff.mpr (.inr ⟨rfl, ih (Nat.succ.inj hlength) hlt⟩)

/-- `strftime("%Y%m%d")` -/
def compactText (date : CalendarDate) : String :=
  String.ofList (digits 4 date.year ++ (digits 2 date.month ++ digits 2 date.day))

lemma day_lt (date : CalendarDate) : date.day < 10 ^ 2 := by
  obtain ⟨-, -, -, hday⟩ := date.valid
  have hle : daysInMonth date.year date.month ≤ 31 := by
    unfold daysInMonth
    split_ifs <;> omega
  omega

lemma compactText_lt {a b : CalendarDate} (h : a < b) : compactText a < compactText b := by
  obtain ⟨⟨-, hyear⟩, ⟨-, hmonth⟩, -⟩ := b.valid
  rw [String.lt_iff_toList_lt, compactText, compactText, String.toList_ofList, String.toList_ofList]
  rcases lt_iff.mp h with hlt | ⟨hsame, hlt | ⟨hsame', hlt⟩⟩
  · exact append_lt_append (by simp only [length_digits]) (digits_lt (by omega) hlt) _ _
  · rw [hsame]
    exact List.append_left_lt (append_lt_append (by simp only [length_digits])
      (digits_lt (by omega) hlt) _ _)
  · rw [hsame, hsame']
    exact List.append_left_lt (List.append_left_lt (digits_lt (day_lt b) hlt))

lemma compactText_le_iff {a b : CalendarDate} : compactText a ≤ compactText b ↔ a ≤ b := by
  have hmono : StrictMono compactText := fun _ _ h => compactText_lt h
  exact hmono.le_iff_le

lemma compactText_injective : Function.Injective compactText := by
  have hmono : StrictMono compactText := fun _ _ h => compactText_lt h
  exact hmono.injective

/-! ### Reading texts -/

/-- Two digits with a value in a range, at the head of a text -/
def twoDigits (lowest highest : ℕ) : List Char → Option (ℕ × List Char)
  | a :: b :: rest =>
    let value := Nat.ofDigitChars 10 [a, b] 0
    if a.isDigit && b.isDigit && lowest ≤ value && value ≤ highest then some (value, rest)
    else none
  | _ => none

/-- A digit other than zero at the head of a text -/
def oneDigit : List Char → Option (ℕ × List Char)
  | a :: rest => if a.isDigit && a ≠ '0' then some (Nat.ofDigitChars 10 [a] 0, rest) else none
  | [] => none

/-- `%m`, as `1[0-2]|0[1-9]|[1-9]` -/
def monthMatches (text : List Char) : List (ℕ × List Char) :=
  (twoDigits 1 12 text).toList ++ (oneDigit text).toList

/-- `%d`, as `3[0-1]|[1-2]\d|0[1-9]|[1-9]| [1-9]` -/
def dayMatches (text : List Char) : List (ℕ × List Char) :=
  (twoDigits 1 31 text).toList ++ (oneDigit text).toList ++
    match text with
    | ' ' :: rest => (oneDigit rest).toList
    | _ => []

/-- `datetime.strptime(text, "%Y%m%d").date()`: the first match, which leaves nothing of the text
and is a date -/
def strptime (text : String) : Option CalendarDate :=
  match text.toList with
  | y₁ :: y₂ :: y₃ :: y₄ :: rest =>
    if [y₁, y₂, y₃, y₄].all Char.isDigit then
      match (monthMatches rest).findSome? fun month =>
        (dayMatches month.2).head?.map fun day => (month.1, day) with
      | some (month, day, []) => ofNumbers (Nat.ofDigitChars 10 [y₁, y₂, y₃, y₄] 0) month day
      | _ => none
    else none
  | _ => none

/-- A text is that of a date: `strptime(text, "%Y%m%d").strftime("%Y%m%d") == text`. -/
def isCompact (text : String) : Bool := (strptime text).any fun date => compactText date = text

lemma ofDigitChars_digits {width n : ℕ} (h : n < 10 ^ width) (init : ℕ) :
    Nat.ofDigitChars 10 (digits width n) init = 10 ^ width * init + n := by
  induction width generalizing n init with
  | zero =>
    have hzero : n = 0 := by omega
    simp [digits, hzero]
  | succ width ih =>
    have hpos : 0 < 10 ^ width := Nat.pow_pos (by decide)
    have hten : n / 10 ^ width < 10 := by
      rw [Nat.div_lt_iff_lt_mul hpos, ← Nat.pow_succ']
      exact h
    have hn := Nat.div_add_mod n (10 ^ width)
    rw [digits, Nat.ofDigitChars_cons_digitChar_of_lt_ten hten, ih (Nat.mod_lt _ hpos),
      Nat.mul_add, Nat.add_assoc, hn, Nat.pow_succ, Nat.mul_assoc]

lemma isDigit_of_mem_digits {width n : ℕ} (h : n < 10 ^ width) :
    ∀ c ∈ digits width n, c.isDigit = true := by
  induction width generalizing n with
  | zero => nofun
  | succ width ih =>
    have hpos : 0 < 10 ^ width := Nat.pow_pos (by decide)
    have hten : n / 10 ^ width < 10 := by
      rw [Nat.div_lt_iff_lt_mul hpos, ← Nat.pow_succ']
      exact h
    have hall : ∀ d < 10, (Nat.digitChar d).isDigit = true := by decide
    exact List.forall_mem_cons.mpr ⟨hall _ hten, ih (Nat.mod_lt _ hpos)⟩

lemma twoDigits_digits {lowest highest n : ℕ} (hlow : lowest ≤ n) (hhigh : n ≤ highest)
    (hn : n < 10 ^ 2) (rest : List Char) :
    twoDigits lowest highest (digits 2 n ++ rest) = some (n, rest) := by
  have hdigits := isDigit_of_mem_digits hn
  have hvalue := ofDigitChars_digits hn 0
  rw [Nat.mul_zero, Nat.zero_add] at hvalue
  simp only [digits] at hdigits hvalue
  obtain ⟨ha, hb, -⟩ : _ ∧ _ ∧ _ := by
    simpa only [List.forall_mem_cons] using hdigits
  simp only [digits, twoDigits, List.cons_append, List.nil_append, hvalue, ha, hb]
  simp [hlow, hhigh]

/-- The first match of a month and a day in the text of both -/
lemma findSome?_monthMatches {month day : ℕ} (hmonth : 1 ≤ month) (hmonth' : month ≤ 12)
    (hday : 1 ≤ day) (hday' : day ≤ 31) :
    ((monthMatches (digits 2 month ++ digits 2 day)).findSome? fun month =>
      (dayMatches month.2).head?.map fun day => (month.1, day)) = some (month, day, []) := by
  have hdays := twoDigits_digits hday hday' (by omega) []
  rw [List.append_nil] at hdays
  rw [monthMatches, twoDigits_digits hmonth hmonth' (by omega), Option.toList_some,
    List.singleton_append, List.findSome?_cons]
  simp [dayMatches, hdays]

theorem strptime_compactText (date : CalendarDate) :
    strptime (compactText date) = some date := by
  obtain ⟨⟨-, hyear⟩, ⟨hmonth, hmonth'⟩, hday, hday'⟩ := date.valid
  have hle : daysInMonth date.year date.month ≤ 31 := by
    unfold daysInMonth
    split_ifs <;> omega
  have hlt : date.year < 10 ^ 4 := by omega
  have hdigits := List.all_eq_true.mpr (isDigit_of_mem_digits hlt)
  have hvalue := ofDigitChars_digits hlt 0
  rw [Nat.mul_zero, Nat.zero_add] at hvalue
  have htext : (compactText date).toList =
      digits 4 date.year ++ (digits 2 date.month ++ digits 2 date.day) := String.toList_ofList
  have hfirst := findSome?_monthMatches hmonth hmonth' hday (hday'.trans hle)
  unfold strptime
  rw [htext]
  generalize digits 2 date.month ++ digits 2 date.day = rest at hfirst ⊢
  simp only [digits, List.cons_append, List.nil_append] at hdigits hvalue ⊢
  rw [if_pos hdigits, hfirst, hvalue]
  exact ofNumbers_eq_some_iff.mpr ⟨rfl, rfl, rfl⟩

theorem isCompact_iff {text : String} : isCompact text ↔ ∃ date, compactText date = text := by
  constructor
  · intro h
    obtain ⟨date, -, hdate⟩ := (Option.any_eq_true _ _).mp h
    exact ⟨date, of_decide_eq_true hdate⟩
  · rintro ⟨date, rfl⟩
    rw [isCompact, strptime_compactText]
    exact decide_eq_true rfl

end CalendarDate
