import ThesisTrace.Library.DecimalText

/-!
# JSON texts

The writer of compact JSON and the reader of JSON documents, over an arbitrary type of finite
floats. A text is a list of characters. What the writer gives, the reader reads back.
-/

namespace JsonText
open DecimalText RatioText

/-! ### Numbers -/

/-- The parts of a number: the whole part with its sign, the fraction with its point and the
exponent with its mark. -/
structure NumberText where
  whole : List Char
  fraction : List Char
  exponent : List Char
  deriving DecidableEq

def NumberText.text (number : NumberText) : List Char :=
  number.whole ++ number.fraction ++ number.exponent

def NumberText.isInt (number : NumberText) : Bool :=
  number.fraction.isEmpty && number.exponent.isEmpty

def digitsOf (text : List Char) : List Char := text.takeWhile Char.isDigit

def afterDigits (text : List Char) : List Char := text.dropWhile Char.isDigit

/-- `-?` -/
def matchSign : List Char → List Char × List Char
  | '-' :: rest => (['-'], rest)
  | text => ([], text)

/-- `0|[1-9][0-9]*` -/
def matchWhole : List Char → Option (List Char × List Char)
  | '0' :: rest => some (['0'], rest)
  | text => if digitsOf text = [] then none else some (digitsOf text, afterDigits text)

/-- `(\.[0-9]+)?` -/
def matchFraction : List Char → List Char × List Char
  | '.' :: rest =>
    if digitsOf rest = [] then ([], '.' :: rest) else ('.' :: digitsOf rest, afterDigits rest)
  | text => ([], text)

/-- `[-+]?` -/
def matchExponentSign : List Char → List Char × List Char
  | '-' :: rest => (['-'], rest)
  | '+' :: rest => (['+'], rest)
  | text => ([], text)

/-- `([eE][-+]?[0-9]+)?` -/
def matchExponent : List Char → List Char × List Char
  | [] => ([], [])
  | mark :: rest =>
    let signed := matchExponentSign rest
    if (mark = 'e' ∨ mark = 'E') ∧ digitsOf signed.2 ≠ [] then
      (mark :: signed.1 ++ digitsOf signed.2, afterDigits signed.2)
    else ([], mark :: rest)

/-- The longest number at the start of a text. -/
def matchNumber (text : List Char) : Option (NumberText × List Char) :=
  let signed := matchSign text
  (matchWhole signed.2).map fun whole =>
    let fraction := matchFraction whole.2
    let exponent := matchExponent fraction.2
    (⟨signed.1 ++ whole.1, fraction.1, exponent.1⟩, exponent.2)

/-- The text does not go on as a number. -/
def Delimited (text : List Char) : Prop :=
  ∀ c ∈ text.head?, c.isDigit = false ∧ c ≠ '.' ∧ c ≠ 'e' ∧ c ≠ 'E'

/-- How finite floats are written: as a number that is not an integer, and that reads as the same
float. -/
structure FloatFormat (F : Type) where
  repr : F → List Char
  read : List Char → Option F
  match_repr : ∀ x rest, Delimited rest → ∃ number,
    matchNumber (repr x ++ rest) = some (number, rest) ∧ number.text = repr x ∧
      number.isInt = false
  read_repr : ∀ x, read (repr x) = some x

lemma match_elim (x : Empty) (rest : List Char) (_ : Delimited rest) : ∃ number,
    matchNumber (Empty.elim x ++ rest) = some (number, rest) ∧ number.text = Empty.elim x ∧
      number.isInt = false := x.elim

lemma read_elim (x : Empty) : none = some x := x.elim

def intText (i : ℤ) : List Char :=
  if i < 0 then '-' :: Nat.toDigits 10 i.natAbs else Nat.toDigits 10 i.natAbs

def readInt : List Char → Option ℤ
  | '-' :: digits => (readDigits digits).map fun n : ℕ => -(n : ℤ)
  | digits => (readDigits digits).map Int.ofNat

section Numbers

variable {text rest digits : List Char} {i : ℤ}

lemma digitsOf_append (hdigits : ∀ c ∈ digits, c.isDigit = true)
    (hrest : ∀ c ∈ rest.head?, c.isDigit = false) : digitsOf (digits ++ rest) = digits := by
  rw [digitsOf, List.takeWhile_append_of_pos hdigits]
  cases rest with
  | nil => simp
  | cons c rest => simp [hrest c rfl]

lemma afterDigits_append (hdigits : ∀ c ∈ digits, c.isDigit = true)
    (hrest : ∀ c ∈ rest.head?, c.isDigit = false) : afterDigits (digits ++ rest) = rest := by
  rw [afterDigits, List.dropWhile_append_of_pos hdigits]
  cases rest with
  | nil => rfl
  | cons c rest => simp [hrest c rfl]

lemma matchFraction_of_delimited (h : Delimited rest) : matchFraction rest = ([], rest) := by
  unfold matchFraction
  split
  · next tail => exact absurd rfl (h '.' rfl).2.1
  · rfl

lemma matchExponent_of_delimited (h : Delimited rest) : matchExponent rest = ([], rest) := by
  cases rest with
  | nil => rfl
  | cons mark rest =>
    obtain ⟨-, -, hlower, hupper⟩ := h mark rfl
    rw [matchExponent, if_neg]
    rintro ⟨rfl | rfl, -⟩
    · exact hlower rfl
    · exact hupper rfl

lemma matchWhole_toDigits (n : ℕ) (hrest : ∀ c ∈ rest.head?, c.isDigit = false) :
    matchWhole (Nat.toDigits 10 n ++ rest) = some (Nat.toDigits 10 n, rest) := by
  rcases Nat.eq_zero_or_pos n with rfl | hpos
  · rfl
  · obtain ⟨c, tail, hdigits, hne⟩ := toDigits_head hpos
    unfold matchWhole
    split
    · next heq =>
      rw [hdigits, List.cons_append, List.cons.injEq] at heq
      exact absurd heq.1 hne
    · rw [digitsOf_append (isDigit_toDigits n) hrest, afterDigits_append (isDigit_toDigits n) hrest,
        if_neg Nat.toDigits_ne_nil]

lemma matchSign_toDigits (n : ℕ) :
    matchSign (Nat.toDigits 10 n ++ rest) = ([], Nat.toDigits 10 n ++ rest) := by
  unfold matchSign
  split
  · next tail heq =>
    have hdigit : '-' ∈ Nat.toDigits 10 n ++ rest := heq ▸ List.mem_cons_self
    cases hdigits : Nat.toDigits 10 n with
    | nil => exact absurd hdigits Nat.toDigits_ne_nil
    | cons c digits =>
      rw [hdigits, List.cons_append, List.cons.injEq] at heq
      have hc := isDigit_toDigits n c (hdigits ▸ List.mem_cons_self)
      rw [heq.1] at hc
      cases hc
  · rfl

/-- An integer is read as far as it was written. -/
lemma matchNumber_intText (i : ℤ) (h : Delimited rest) :
    matchNumber (intText i ++ rest) = some (⟨intText i, [], []⟩, rest) := by
  have hrest : ∀ c ∈ rest.head?, c.isDigit = false := fun c hc => (h c hc).1
  unfold intText
  split
  · rw [matchNumber, List.cons_append, matchSign, matchWhole_toDigits _ hrest]
    simp [matchFraction_of_delimited h, matchExponent_of_delimited h]
  · rw [matchNumber, matchSign_toDigits, matchWhole_toDigits _ hrest]
    simp [matchFraction_of_delimited h, matchExponent_of_delimited h]

lemma readInt_intText (i : ℤ) : readInt (intText i) = some i := by
  unfold intText
  split
  · next hneg =>
    rw [readInt, readDigits_toDigits]
    simp only [Option.map_some, Option.some.injEq]
    omega
  · next hneg =>
    have hread := readDigits_toDigits i.natAbs
    unfold readInt
    split
    · next digits heq =>
      have hdigit := isDigit_toDigits i.natAbs '-' (heq ▸ List.mem_cons_self)
      cases hdigit
    · rw [hread]
      simp only [Option.map_some, Option.some.injEq, Int.ofNat_eq_natCast]
      omega

/-- A text that starts with a number starts with its sign or a digit. -/
lemma head_of_matchNumber {number : NumberText} (h : matchNumber text = some (number, rest)) :
    ∃ c tail, text = c :: tail ∧ (c = '-' ∨ c.isDigit = true) := by
  cases text with
  | nil => cases h
  | cons c tail =>
    refine ⟨c, tail, rfl, ?_⟩
    by_contra hhead
    obtain ⟨hsign, hdigit⟩ := not_or.mp hhead
    have hsigned : matchSign (c :: tail) = ([], c :: tail) := by
      unfold matchSign
      split
      · next heq => exact absurd (List.cons.inj heq).1 hsign
      · rfl
    have hwhole : matchWhole (c :: tail) = none := by
      unfold matchWhole
      split
      · next heq =>
        rw [(List.cons.inj heq).1] at hdigit
        exact absurd rfl hdigit
      · rw [digitsOf, List.takeWhile_cons_of_neg hdigit, if_pos rfl]
    rw [matchNumber, hsigned, hwhole] at h
    cases h

end Numbers

/-! ### Strings -/

def hexDigits (n : ℕ) : List Char :=
  [(n / 4096 % 16).digitChar, (n / 256 % 16).digitChar, (n / 16 % 16).digitChar,
    (n % 16).digitChar]

/-- `\\u` and four hexadecimal digits -/
def escapeUnit (n : ℕ) : List Char := '\\' :: 'u' :: hexDigits n

/-- The letter of a character with an escape of its own. -/
def shortEscape : Char → Option Char
  | '"' => some '"'
  | '\\' => some '\\'
  | '\n' => some 'n'
  | '\r' => some 'r'
  | '\t' => some 't'
  | '\x08' => some 'b'
  | '\x0c' => some 'f'
  | _ => none

/-- Control characters are escaped, and all others but ASCII if `ascii` is set; those beyond the
basic plane as two surrogates. -/
def escapeChar (ascii : Bool) (c : Char) : List Char :=
  match shortEscape c with
  | some letter => ['\\', letter]
  | none =>
    if c.toNat < 32 ∨ (ascii = true ∧ 127 ≤ c.toNat) then
      if c.toNat < 65536 then escapeUnit c.toNat
      else escapeUnit (55296 + (c.toNat - 65536) / 1024) ++
        escapeUnit (56320 + (c.toNat - 65536) % 1024)
    else [c]

def stringText (ascii : Bool) (text : List Char) : List Char :=
  '"' :: text.flatMap (escapeChar ascii) ++ ['"']

def hexValue (c : Char) : Option ℕ :=
  if '0' ≤ c ∧ c ≤ '9' then some (c.toNat - '0'.toNat)
  else if 'a' ≤ c ∧ c ≤ 'f' then some (c.toNat - 'a'.toNat + 10)
  else if 'A' ≤ c ∧ c ≤ 'F' then some (c.toNat - 'A'.toNat + 10)
  else none

/-- Four hexadecimal digits. -/
def readUnit : List Char → Option (ℕ × List Char)
  | a :: b :: c :: d :: rest => do
    let a ← hexValue a
    let b ← hexValue b
    let c ← hexValue c
    let d ← hexValue d
    return (((a * 16 + b) * 16 + c) * 16 + d, rest)
  | _ => none

def IsHigh (unit : ℕ) : Prop := 55296 ≤ unit ∧ unit < 56320

def IsLow (unit : ℕ) : Prop := 56320 ≤ unit ∧ unit < 57344

instance (unit : ℕ) : Decidable (IsHigh unit) := inferInstanceAs (Decidable (_ ∧ _))

instance (unit : ℕ) : Decidable (IsLow unit) := inferInstanceAs (Decidable (_ ∧ _))

/-- The low surrogate after a high one. -/
def readLow (high : ℕ) : List Char → Option (Char × List Char)
  | '\\' :: 'u' :: rest =>
    (readUnit rest).bind fun (low, rest) =>
      if IsLow low then
        some (Char.ofNat (65536 + (high - 55296) * 1024 + (low - 56320)), rest)
      else none
  | _ => none

/-- A lone surrogate is no character. -/
def readUnicode (text : List Char) : Option (Char × List Char) :=
  (readUnit text).bind fun (unit, rest) =>
    if IsHigh unit then readLow unit rest
    else if IsLow unit then none
    else some (Char.ofNat unit, rest)

/-- What follows a backslash. -/
def readEscape : List Char → Option (Char × List Char)
  | 'u' :: rest => readUnicode rest
  | '"' :: rest => some ('"', rest)
  | '\\' :: rest => some ('\\', rest)
  | '/' :: rest => some ('/', rest)
  | 'b' :: rest => some ('\x08', rest)
  | 'f' :: rest => some ('\x0c', rest)
  | 'n' :: rest => some ('\n', rest)
  | 'r' :: rest => some ('\r', rest)
  | 't' :: rest => some ('\t', rest)
  | _ => none

/-- What follows the opening quote, up to the closing one. -/
def readString : ℕ → List Char → Option (List Char × List Char)
  | 0, _ => none
  | fuel + 1, text =>
    match text with
    | [] => none
    | '"' :: rest => some ([], rest)
    | '\\' :: rest =>
      (readEscape rest).bind fun (c, rest) => (readString fuel rest).map (Prod.map (c :: ·) id)
    | c :: rest =>
      if c.toNat < 32 then none else (readString fuel rest).map (Prod.map (c :: ·) id)

section Strings

variable {ascii : Bool} {c : Char} {fuel : ℕ} {rest : List Char}

lemma hexValue_digitChar {n : ℕ} (h : n < 16) : hexValue n.digitChar = some n := by
  interval_cases n <;> rfl

lemma readUnit_hexDigits {n : ℕ} (h : n < 65536) :
    readUnit (hexDigits n ++ rest) = some (n, rest) := by
  have hsum : ((n / 4096 % 16 * 16 + n / 256 % 16) * 16 + n / 16 % 16) * 16 + n % 16 = n := by
    omega
  have hdigit : ∀ m : ℕ, hexValue (m % 16).digitChar = some (m % 16) := fun m =>
    hexValue_digitChar (Nat.mod_lt m (by decide))
  simp only [hexDigits, List.cons_append, List.nil_append, readUnit, hdigit]
  exact congrArg (fun m => some (m, rest)) hsum

lemma readEscape_short {letter : Char} (h : shortEscape c = some letter) :
    readEscape (letter :: rest) = some (c, rest) := by
  unfold shortEscape at h
  split at h <;> cases h <;> rfl

/-- A character of the basic plane is no surrogate. -/
lemma not_surrogate (c : Char) : ¬IsHigh c.toNat ∧ ¬IsLow c.toNat := by
  have hvalid : c.toNat < 55296 ∨ 57343 < c.toNat ∧ c.toNat < 1114112 := c.valid
  unfold IsHigh IsLow
  omega

lemma readEscape_basic (h : c.toNat < 65536) :
    readEscape (('u' :: hexDigits c.toNat) ++ rest) = some (c, rest) := by
  obtain ⟨hhigh, hlow⟩ := not_surrogate c
  rw [List.cons_append, readEscape, readUnicode, readUnit_hexDigits h]
  simp [hhigh, hlow, Char.ofNat_toNat]

lemma readEscape_astral (h : 65536 ≤ c.toNat) :
    readEscape (('u' :: hexDigits (55296 + (c.toNat - 65536) / 1024)) ++
      (escapeUnit (56320 + (c.toNat - 65536) % 1024) ++ rest)) = some (c, rest) := by
  have hvalid : c.toNat < 55296 ∨ 57343 < c.toNat ∧ c.toNat < 1114112 := c.valid
  have hhigh : IsHigh (55296 + (c.toNat - 65536) / 1024) := by
    unfold IsHigh
    omega
  have hlow : IsLow (56320 + (c.toNat - 65536) % 1024) := by
    unfold IsLow
    omega
  have hsum : 65536 + (55296 + (c.toNat - 65536) / 1024 - 55296) * 1024 +
      (56320 + (c.toNat - 65536) % 1024 - 56320) = c.toNat := by
    omega
  have hfirst : 55296 + (c.toNat - 65536) / 1024 < 65536 := by omega
  have hsecond : 56320 + (c.toNat - 65536) % 1024 < 65536 := by omega
  rw [List.cons_append, readEscape, readUnicode, readUnit_hexDigits hfirst, Option.bind_some]
  dsimp only
  rw [if_pos hhigh, escapeUnit, List.cons_append, List.cons_append, readLow,
    readUnit_hexDigits hsecond, Option.bind_some]
  dsimp only
  rw [if_pos hlow, hsum, Char.ofNat_toNat]

lemma readString_escapeChar :
    readString (fuel + 1) (escapeChar ascii c ++ rest) =
      (readString fuel rest).map (Prod.map (c :: ·) id) := by
  unfold escapeChar
  split
  · next letter hletter =>
    rw [List.cons_append, List.cons_append, List.nil_append, readString,
      readEscape_short hletter, Option.bind_some]
  · next hletter =>
    split
    · split
      · next hbasic =>
        rw [escapeUnit, List.cons_append, readString, readEscape_basic hbasic, Option.bind_some]
      · next hbasic =>
        rw [List.append_assoc, escapeUnit, List.cons_append, readString,
          readEscape_astral (not_lt.mp hbasic), Option.bind_some]
    · next hraw =>
      have hcontrol : ¬c.toNat < 32 := fun h => hraw (.inl h)
      rw [List.cons_append, List.nil_append]
      conv_lhs => unfold readString
      dsimp only
      split
      · next heq => cases heq
      · next heq =>
        rw [(List.cons.inj heq).1] at hletter
        cases hletter
      · next heq =>
        rw [(List.cons.inj heq).1] at hletter
        cases hletter
      · next heq =>
        obtain ⟨rfl, rfl⟩ := List.cons.inj heq
        rw [if_neg hcontrol]

/-- A string is read as it was written. -/
lemma readString_stringText (text : List Char) (h : text.length < fuel) :
    readString fuel (text.flatMap (escapeChar ascii) ++ '"' :: rest) = some (text, rest) := by
  induction text generalizing fuel with
  | nil =>
    obtain ⟨fuel, rfl⟩ := Nat.exists_eq_succ_of_ne_zero (Nat.ne_of_gt h)
    rfl
  | cons c text ih =>
    obtain ⟨fuel, rfl⟩ := Nat.exists_eq_succ_of_ne_zero (Nat.ne_of_gt (Nat.zero_lt_of_lt h))
    rw [List.flatMap_cons, List.append_assoc, readString_escapeChar,
      ih (Nat.succ_lt_succ_iff.mp h)]
    rfl

lemma escapeChar_ne_nil : escapeChar ascii c ≠ [] := by
  unfold escapeChar escapeUnit
  split
  · exact List.cons_ne_nil _ _
  · split
    · split <;> exact List.cons_ne_nil _ _
    · exact List.cons_ne_nil _ _

lemma length_le_stringText (text : List Char) :
    text.length ≤ (text.flatMap (escapeChar ascii)).length := by
  induction text with
  | nil => exact le_rfl
  | cons c text ih =>
    have hpos : 0 < (escapeChar ascii c).length := List.length_pos_iff.mpr escapeChar_ne_nil
    rw [List.flatMap_cons, List.length_append, List.length_cons]
    omega

end Strings

/-! ### Values -/

inductive Json (F : Type)
  | null
  | bool (value : Bool)
  | int (value : ℤ)
  | float (value : F)
  | str (text : String)
  | arr (items : List (Json F))
  | obj (fields : List (String × Json F))

variable {F : Type}

/-- Induction over a value and the values in it. -/
@[elab_as_elim]
theorem Json.induct {motive : Json F → Prop} (null : motive .null)
    (bool : ∀ value, motive (.bool value)) (int : ∀ value, motive (.int value))
    (float : ∀ value, motive (.float value)) (str : ∀ text, motive (.str text))
    (arr : ∀ items, (∀ item ∈ items, motive item) → motive (.arr items))
    (obj : ∀ fields, (∀ field ∈ fields, motive field.2) → motive (.obj fields)) (v : Json F) :
    motive v :=
  @Json.rec F motive (fun items => ∀ item ∈ items, motive item)
    (fun fields => ∀ field ∈ fields, motive field.2) (fun field => motive field.2)
    null bool int float str (fun items ih => arr items ih) (fun fields ih => obj fields ih)
    (fun _ h => nomatch h)
    (fun _ _ hhead htail => List.forall_mem_cons.mpr ⟨hhead, htail⟩)
    (fun _ h => nomatch h)
    (fun _ _ hhead htail => List.forall_mem_cons.mpr ⟨hhead, htail⟩)
    (fun _ _ ih => ih) v

mutual

/-- The keys of every object are distinct. -/
def Json.WellFormed : Json F → Prop
  | .arr items => WellFormedItems items
  | .obj fields => (fields.map Prod.fst).Nodup ∧ WellFormedFields fields
  | _ => True

def WellFormedItems : List (Json F) → Prop
  | [] => True
  | item :: items => item.WellFormed ∧ WellFormedItems items

def WellFormedFields : List (String × Json F) → Prop
  | [] => True
  | (_, value) :: fields => value.WellFormed ∧ WellFormedFields fields

end

lemma wellFormedItems_iff {items : List (Json F)} :
    WellFormedItems items ↔ ∀ item ∈ items, item.WellFormed := by
  induction items with
  | nil => simp [WellFormedItems]
  | cons item items ih => simp [WellFormedItems, ih]

lemma wellFormedFields_iff {fields : List (String × Json F)} :
    WellFormedFields fields ↔ ∀ field ∈ fields, field.2.WellFormed := by
  induction fields with
  | nil => simp [WellFormedFields]
  | cons field fields ih => simp [WellFormedFields, ih]

/-! ### Writing -/

mutual

/-- The text of a value, without blanks. -/
def dumps (format : FloatFormat F) (ascii : Bool) : Json F → List Char
  | .null => ['n', 'u', 'l', 'l']
  | .bool true => ['t', 'r', 'u', 'e']
  | .bool false => ['f', 'a', 'l', 's', 'e']
  | .int value => intText value
  | .float value => format.repr value
  | .str text => stringText ascii text.toList
  | .arr [] => ['[', ']']
  | .arr (item :: items) => '[' :: (dumps format ascii item ++ moreItems format ascii items)
  | .obj [] => ['{', '}']
  | .obj ((key, value) :: fields) =>
    '{' :: (stringText ascii key.toList ++ ':' :: (dumps format ascii value ++
      moreFields format ascii fields))

/-- The items after the first one. -/
def moreItems (format : FloatFormat F) (ascii : Bool) : List (Json F) → List Char
  | [] => [']']
  | item :: items => ',' :: (dumps format ascii item ++ moreItems format ascii items)

/-- The fields after the first one. -/
def moreFields (format : FloatFormat F) (ascii : Bool) : List (String × Json F) → List Char
  | [] => ['}']
  | (key, value) :: fields =>
    ',' :: (stringText ascii key.toList ++ ':' :: (dumps format ascii value ++
      moreFields format ascii fields))

end

/-! ### Reading -/

def isBlank (c : Char) : Bool := c = ' ' || c = '\t' || c = '\n' || c = '\r'

def skipBlanks (text : List Char) : List Char := text.dropWhile isBlank

/-- `fields[key] = value`; a key keeps its place. -/
def setField (fields : List (String × Json F)) (field : String × Json F) :
    List (String × Json F) :=
  if fields.any fun old => old.1 = field.1 then
    fields.map fun old => if old.1 = field.1 then field else old
  else fields ++ [field]

/-- `fields.get(key)` -/
def lookup (fields : List (String × Json F)) (key : String) : Option (Json F) :=
  (fields.find? fun field => field.1 = key).map Prod.snd

/-- A later field replaces an earlier one of the same key. -/
def fieldsOf (pairs : List (String × Json F)) : List (String × Json F) :=
  pairs.foldl setField []

def readNumber (format : FloatFormat F) (text : List Char) : Option (Json F × List Char) :=
  (matchNumber text).bind fun (number, rest) =>
    if number.isInt then (readInt number.text).map fun value => (.int value, rest)
    else (format.read number.text).map fun value => (.float value, rest)

/-- A key with its colon. -/
def readKey : List Char → Option (String × List Char)
  | '"' :: rest =>
    (readString rest.length rest).bind fun (key, rest) =>
      match skipBlanks rest with
      | ':' :: rest => some (String.ofList key, skipBlanks rest)
      | _ => none
  | _ => none

mutual

/-- The value at the start of a text. -/
def readValue (format : FloatFormat F) : ℕ → List Char → Option (Json F × List Char)
  | 0, _ => none
  | fuel + 1, text =>
    match text with
    | '"' :: rest =>
      (readString rest.length rest).map fun (text, rest) => (.str (String.ofList text), rest)
    | '[' :: rest =>
      match skipBlanks rest with
      | ']' :: rest => some (.arr [], rest)
      | rest => (readItems format fuel rest).map fun (items, rest) => (.arr items, rest)
    | '{' :: rest =>
      match skipBlanks rest with
      | '}' :: rest => some (.obj [], rest)
      | rest =>
        (readFields format fuel rest).map fun (fields, rest) => (.obj (fieldsOf fields), rest)
    | 'n' :: 'u' :: 'l' :: 'l' :: rest => some (.null, rest)
    | 't' :: 'r' :: 'u' :: 'e' :: rest => some (.bool true, rest)
    | 'f' :: 'a' :: 'l' :: 's' :: 'e' :: rest => some (.bool false, rest)
    | text => readNumber format text

/-- The items up to the closing bracket. -/
def readItems (format : FloatFormat F) : ℕ → List Char → Option (List (Json F) × List Char)
  | 0, _ => none
  | fuel + 1, text =>
    (readValue format fuel text).bind fun (item, rest) =>
      match skipBlanks rest with
      | ']' :: rest => some ([item], rest)
      | ',' :: rest =>
        (readItems format fuel (skipBlanks rest)).map fun (items, rest) => (item :: items, rest)
      | _ => none

/-- The fields up to the closing brace. -/
def readFields (format : FloatFormat F) :
    ℕ → List Char → Option (List (String × Json F) × List Char)
  | 0, _ => none
  | fuel + 1, text =>
    (readKey text).bind fun (key, rest) =>
      (readValue format fuel rest).bind fun (value, rest) =>
        match skipBlanks rest with
        | '}' :: rest => some ([(key, value)], rest)
        | ',' :: rest =>
          (readFields format fuel (skipBlanks rest)).map fun (fields, rest) =>
            ((key, value) :: fields, rest)
        | _ => none

end

/-- The value of a document. -/
def loads (format : FloatFormat F) (text : List Char) : Option (Json F) :=
  (readValue format text.length (skipBlanks text)).bind fun (value, rest) =>
    if skipBlanks rest = [] then some value else none

/-! ### Reading back -/

section RoundTrip

variable (format : FloatFormat F) (ascii : Bool) {fields : List (String × Json F)}
  {items : List (Json F)} {item v : Json F} {text rest : List Char} {fuel : ℕ}

lemma delimited_cons {c : Char} (h : c.isDigit = false ∧ c ≠ '.' ∧ c ≠ 'e' ∧ c ≠ 'E') :
    Delimited (c :: rest) := by
  intro d hd
  rw [List.head?_cons, Option.mem_some_iff] at hd
  exact hd ▸ h

lemma skipBlanks_cons {c : Char} (h : isBlank c = false) : skipBlanks (c :: rest) = c :: rest :=
  List.dropWhile_cons_of_neg (by simp [h])

lemma setField_of_notMem {field : String × Json F} (h : field.1 ∉ fields.map Prod.fst) :
    setField fields field = fields ++ [field] := by
  rw [setField, if_neg]
  intro hany
  obtain ⟨old, hold, heq⟩ := List.any_eq_true.mp hany
  exact h (List.mem_map.mpr ⟨old, hold, of_decide_eq_true heq⟩)

/-- Fields with distinct keys stay as they are. -/
lemma fieldsOf_eq_self (h : (fields.map Prod.fst).Nodup) : fieldsOf fields = fields := by
  have hfold : ∀ (done rest : List (String × Json F)),
      ((done ++ rest).map Prod.fst).Nodup → rest.foldl setField done = done ++ rest := by
    intro done rest
    induction rest generalizing done with
    | nil => simp
    | cons field rest ih =>
      intro hnodup
      have hnew : field.1 ∉ done.map Prod.fst := by
        rw [List.map_append, List.map_cons] at hnodup
        exact fun hmem => List.disjoint_of_nodup_append hnodup hmem List.mem_cons_self
      rw [List.foldl_cons, setField_of_notMem hnew, ih]
      · rw [List.append_assoc, List.singleton_append]
      · rw [List.append_assoc, List.singleton_append]
        exact hnodup
  exact hfold [] fields h

lemma isBlank_of_number {c : Char} (h : c = '-' ∨ c.isDigit = true) : isBlank c = false := by
  rcases h with rfl | h
  · rfl
  · rw [isBlank]
    simp only [Bool.or_eq_false_iff, decide_eq_false_iff_not]
    refine ⟨⟨⟨?_, ?_⟩, ?_⟩, ?_⟩ <;>
    · rintro rfl
      cases h

/-- What starts like a number is read as a number. -/
lemma readValue_of_number {c : Char} (h : c = '-' ∨ c.isDigit = true) :
    readValue format (fuel + 1) (c :: rest) = readNumber format (c :: rest) := by
  have hne : ∀ d : Char, d ≠ '-' → d.isDigit = false → c ≠ d := by
    rintro d hsign hdigit rfl
    rcases h with rfl | h
    · exact hsign rfl
    · rw [h] at hdigit
      cases hdigit
  rw [readValue.eq_def]
  dsimp only
  split
  · next heq => exact absurd (List.cons.inj heq).1 (hne _ (by decide) (by decide))
  · next heq => exact absurd (List.cons.inj heq).1 (hne _ (by decide) (by decide))
  · next heq => exact absurd (List.cons.inj heq).1 (hne _ (by decide) (by decide))
  · next heq => exact absurd (List.cons.inj heq).1 (hne _ (by decide) (by decide))
  · next heq => exact absurd (List.cons.inj heq).1 (hne _ (by decide) (by decide))
  · next heq => exact absurd (List.cons.inj heq).1 (hne _ (by decide) (by decide))
  · rfl

lemma readValue_number {number : NumberText} (fuel : ℕ)
    (h : matchNumber text = some (number, rest)) :
    readValue format (fuel + 1) text = readNumber format text := by
  obtain ⟨c, tail, rfl, hc⟩ := head_of_matchNumber h
  exact readValue_of_number format hc

/-- A value starts neither with a blank nor with a closing mark. -/
lemma dumps_head (v : Json F) : ∃ c tail, dumps format ascii v = c :: tail ∧ isBlank c = false ∧
    c ≠ ']' := by
  have hnumber : ∀ {c : Char}, c = '-' ∨ c.isDigit = true → isBlank c = false ∧ c ≠ ']' := by
    rintro c hc
    refine ⟨isBlank_of_number hc, ?_⟩
    rintro rfl
    rcases hc with hc | hc <;> cases hc
  cases v with
  | null => exact ⟨_, _, rfl, rfl, by decide⟩
  | bool value => cases value <;> exact ⟨_, _, rfl, rfl, by decide⟩
  | int value =>
    have hmatch := @matchNumber_intText [] value (fun c hc => nomatch hc)
    rw [List.append_nil] at hmatch
    obtain ⟨c, tail, htext, hc⟩ := head_of_matchNumber hmatch
    exact ⟨c, tail, htext, hnumber hc⟩
  | float value =>
    obtain ⟨number, hmatch, -, -⟩ := format.match_repr value [] (fun c hc => nomatch hc)
    rw [List.append_nil] at hmatch
    obtain ⟨c, tail, htext, hc⟩ := head_of_matchNumber hmatch
    exact ⟨c, tail, htext, hnumber hc⟩
  | str text => exact ⟨_, _, rfl, rfl, by decide⟩
  | arr items => cases items <;> exact ⟨_, _, rfl, rfl, by decide⟩
  | obj fields =>
    cases fields with
    | nil => exact ⟨_, _, rfl, rfl, by decide⟩
    | cons field fields => exact ⟨_, _, rfl, rfl, by decide⟩

lemma skipBlanks_dumps (v : Json F) :
    skipBlanks (dumps format ascii v ++ rest) = dumps format ascii v ++ rest := by
  obtain ⟨c, tail, htext, hblank, -⟩ := dumps_head format ascii v
  rw [htext, List.cons_append, skipBlanks_cons hblank]

lemma readKey_stringText (key : String) :
    readKey (stringText ascii key.toList ++ ':' :: (dumps format ascii v ++ rest)) =
      some (key, dumps format ascii v ++ rest) := by
  have hlength := @length_le_stringText ascii key.toList
  rw [stringText, List.cons_append, List.cons_append, List.append_assoc, List.singleton_append,
    readKey, readString_stringText]
  · rw [Option.bind_some]
    dsimp only
    rw [skipBlanks_cons rfl]
    simp only [skipBlanks_dumps, String.ofList_toList]
  · rw [List.length_append, List.length_cons]
    omega

lemma skipBlanks_stringText (text : List Char) :
    skipBlanks (stringText ascii text ++ rest) = stringText ascii text ++ rest := rfl

lemma readValue_bracket {c : Char} (hblank : isBlank c = false) (hclose : c ≠ ']') :
    readValue format (fuel + 1) ('[' :: c :: text) =
      (readItems format fuel (c :: text)).map fun (items, rest) => (.arr items, rest) := by
  rw [readValue, skipBlanks_cons hblank]
  split
  · next heq => exact absurd (List.cons.inj heq).1 hclose
  · rfl

lemma readValue_brace (text : List Char) :
    readValue format (fuel + 1) ('{' :: '"' :: text) =
      (readFields format fuel ('"' :: text)).map
        fun (fields, rest) => (.obj (fieldsOf fields), rest) := rfl

/-- The reader gives the value back, with what follows it. -/
def ReadsBack (v : Json F) : Prop :=
  ∀ fuel rest, (dumps format ascii v).length ≤ fuel → Delimited rest →
    readValue format fuel (dumps format ascii v ++ rest) = some (v, rest)

variable {format ascii}

lemma readItems_moreItems (hitem : ReadsBack format ascii item)
    (hitems : ∀ item ∈ items, ReadsBack format ascii item)
    (hfuel : (dumps format ascii item ++ moreItems format ascii items).length ≤ fuel) :
    readItems format fuel (dumps format ascii item ++ moreItems format ascii items ++ rest) =
      some (item :: items, rest) := by
  induction items generalizing item fuel with
  | nil =>
    rw [moreItems, List.length_append, List.length_singleton] at hfuel
    obtain ⟨fuel, rfl⟩ := Nat.exists_eq_add_one_of_ne_zero (show fuel ≠ 0 by omega)
    rw [moreItems, List.append_assoc, List.singleton_append, readItems,
      hitem fuel _ (by omega) (delimited_cons (by decide)), Option.bind_some]
    dsimp only
    rw [skipBlanks_cons rfl]
    rfl
  | cons next items ih =>
    rw [moreItems, List.length_append, List.length_cons] at hfuel
    obtain ⟨c, tail, htext, -, -⟩ := dumps_head format ascii item
    have hpos : 0 < (dumps format ascii item).length := by simp [htext]
    obtain ⟨fuel, rfl⟩ := Nat.exists_eq_add_one_of_ne_zero (show fuel ≠ 0 by omega)
    obtain ⟨hnext, hrest⟩ := List.forall_mem_cons.mp hitems
    have htail := ih hnext hrest (show _ ≤ fuel by omega)
    rw [moreItems, List.append_assoc, List.cons_append, readItems,
      hitem fuel _ (by omega) (delimited_cons (by decide)), Option.bind_some]
    dsimp only
    rw [skipBlanks_cons rfl]
    simp only [List.append_assoc, skipBlanks_dumps]
    rw [← List.append_assoc, htail]
    rfl

lemma readFields_moreFields {key : String} (hvalue : ReadsBack format ascii v)
    (hfields : ∀ field ∈ fields, ReadsBack format ascii field.2)
    (hfuel : (stringText ascii key.toList ++ ':' :: (dumps format ascii v ++
      moreFields format ascii fields)).length ≤ fuel) :
    readFields format fuel (stringText ascii key.toList ++ ':' :: (dumps format ascii v ++
      moreFields format ascii fields) ++ rest) = some ((key, v) :: fields, rest) := by
  induction fields generalizing key v fuel with
  | nil =>
    rw [moreFields, List.length_append, List.length_cons, List.length_append,
      List.length_singleton] at hfuel
    obtain ⟨fuel, rfl⟩ := Nat.exists_eq_add_one_of_ne_zero (show fuel ≠ 0 by omega)
    rw [moreFields, List.append_assoc, List.cons_append, List.append_assoc, List.singleton_append,
      readFields, readKey_stringText, Option.bind_some]
    dsimp only
    rw [hvalue fuel _ (by omega) (delimited_cons (by decide)), Option.bind_some]
    dsimp only
    rw [skipBlanks_cons rfl]
    rfl
  | cons next fields ih =>
    obtain ⟨next, value⟩ := next
    rw [moreFields, List.length_append, List.length_cons, List.length_append,
      List.length_cons] at hfuel
    obtain ⟨fuel, rfl⟩ := Nat.exists_eq_add_one_of_ne_zero (show fuel ≠ 0 by omega)
    obtain ⟨hnext, hrest⟩ := List.forall_mem_cons.mp hfields
    have hvalue' : ReadsBack format ascii value := hnext
    have htail := @ih value fuel next hvalue' hrest (by omega)
    rw [moreFields, List.append_assoc, List.cons_append, List.append_assoc, List.cons_append,
      readFields, readKey_stringText, Option.bind_some]
    dsimp only
    rw [hvalue fuel _ (by omega) (delimited_cons (by decide)), Option.bind_some]
    dsimp only
    rw [skipBlanks_cons rfl]
    simp only [List.append_assoc, List.cons_append, skipBlanks_stringText] at htail ⊢
    rw [htail]
    rfl

/-- Every value whose objects have distinct keys is read as it was written. -/
theorem readValue_dumps (v : Json F) (hv : v.WellFormed) : ReadsBack format ascii v := by
  have hfuel : ∀ {fuel : ℕ} {text : List Char}, text ≠ [] → text.length ≤ fuel →
      ∃ n, fuel = n + 1 := fun hne hle =>
    Nat.exists_eq_add_one_of_ne_zero (by have := List.length_pos_iff.mpr hne; omega)
  induction v using Json.induct with
  | null =>
    intro fuel rest hle _
    obtain ⟨fuel, rfl⟩ := hfuel (by simp [dumps]) hle
    rfl
  | bool value =>
    intro fuel rest hle _
    cases value <;>
    · obtain ⟨fuel, rfl⟩ := hfuel (by simp [dumps]) hle
      rfl
  | int value =>
    intro fuel rest hle hrest
    have hmatch := matchNumber_intText value hrest
    obtain ⟨c, tail, htext, -, -⟩ := dumps_head format ascii (.int value)
    obtain ⟨fuel, rfl⟩ := hfuel (by simp [htext]) hle
    rw [dumps, readValue_number format fuel hmatch, readNumber, hmatch, Option.bind_some]
    simp [NumberText.isInt, NumberText.text, readInt_intText]
  | float value =>
    intro fuel rest hle hrest
    obtain ⟨number, hmatch, htext, hint⟩ := format.match_repr value rest hrest
    obtain ⟨c, tail, hhead, -, -⟩ := dumps_head format ascii (.float value)
    obtain ⟨fuel, rfl⟩ := hfuel (by simp [hhead]) hle
    rw [dumps, readValue_number format fuel hmatch, readNumber, hmatch, Option.bind_some]
    simp [hint, htext, format.read_repr]
  | str text =>
    intro fuel rest hle _
    obtain ⟨fuel, rfl⟩ := hfuel (by simp [dumps, stringText]) hle
    have hlength := @length_le_stringText ascii text.toList
    rw [dumps, stringText, List.cons_append, List.cons_append, List.append_assoc,
      List.singleton_append, readValue]
    rw [readString_stringText]
    · simp
    · rw [List.length_append, List.length_cons]
      omega
  | arr items ih =>
    intro fuel rest hle _
    rw [Json.WellFormed, wellFormedItems_iff] at hv
    cases items with
    | nil =>
      obtain ⟨fuel, rfl⟩ := hfuel (by simp [dumps]) hle
      rfl
    | cons item items =>
      obtain ⟨fuel, rfl⟩ := hfuel (by simp [dumps]) hle
      obtain ⟨hitem, hitems⟩ := List.forall_mem_cons.mp fun item hmem => ih item hmem (hv item hmem)
      rw [dumps, List.length_cons] at hle
      have hread := @readItems_moreItems _ _ _ _ _ rest fuel hitem hitems (by omega)
      obtain ⟨c, tail, htext, hblank, hclose⟩ := dumps_head format ascii item
      rw [htext, List.cons_append, List.cons_append] at hread
      rw [dumps, htext, List.cons_append, List.cons_append, List.cons_append,
        readValue_bracket format hblank hclose, hread, Option.map_some]
  | obj fields ih =>
    intro fuel rest hle _
    obtain ⟨hnodup, hwell⟩ := hv
    rw [wellFormedFields_iff] at hwell
    cases fields with
    | nil =>
      obtain ⟨fuel, rfl⟩ := hfuel (by simp [dumps]) hle
      rfl
    | cons field fields =>
      obtain ⟨key, value⟩ := field
      obtain ⟨fuel, rfl⟩ := hfuel (by simp [dumps]) hle
      obtain ⟨hvalue, hfields⟩ :=
        List.forall_mem_cons.mp fun field hmem => ih field hmem (hwell field hmem)
      rw [dumps, List.length_cons] at hle
      have hread := @readFields_moreFields _ _ _ _ value rest fuel key hvalue hfields (by omega)
      rw [stringText, List.cons_append, List.cons_append, List.cons_append] at hread
      rw [dumps, stringText, List.cons_append, List.cons_append, List.cons_append,
        List.cons_append, readValue_brace, hread, Option.map_some]
      dsimp only
      rw [fieldsOf_eq_self hnodup]

/-- Loading inverts dumping. -/
theorem loads_dumps (v : Json F) (hv : v.WellFormed) :
    loads format (dumps format ascii v) = some v := by
  have hread := (readValue_dumps v hv : ReadsBack format ascii v) _ [] le_rfl
    (fun c hc => nomatch hc)
  have hblanks := @skipBlanks_dumps _ format ascii [] v
  rw [List.append_nil] at hread hblanks
  rw [loads, hblanks, hread]
  rfl

end RoundTrip

/-! ### Bytes -/

/-- The UTF-8 bytes of a text. -/
def encodeText (text : List Char) : List UInt8 := text.flatMap String.utf8EncodeChar

def decodeText (bytes : List UInt8) : Option (List Char) :=
  bytes.toByteArray.utf8Decode?.map Array.toList

lemma decodeText_encodeText (text : List Char) : decodeText (encodeText text) = some text := by
  have hbytes : (encodeText text).toByteArray = text.utf8Encode := rfl
  rw [decodeText, hbytes, List.utf8Decode?_utf8Encode]
  rfl

def dumpBytes (format : FloatFormat F) (ascii : Bool) (v : Json F) : List UInt8 :=
  encodeText (dumps format ascii v)

def loadBytes (format : FloatFormat F) (bytes : List UInt8) : Option (Json F) :=
  (decodeText bytes).bind (loads format)

theorem loadBytes_dumpBytes {format : FloatFormat F} {ascii : Bool} (v : Json F)
    (hv : v.WellFormed) : loadBytes format (dumpBytes format ascii v) = some v := by
  rw [loadBytes, dumpBytes, decodeText_encodeText, Option.bind_some, loads_dumps v hv]

/-! ### Latin-1 -/

/-- A character for every byte. -/
def latinText (bytes : List UInt8) : String :=
  String.ofList (bytes.map fun byte => Char.ofNat byte.toNat)

def latinBytes (text : String) : List UInt8 := text.toList.map fun c => UInt8.ofNat c.toNat

lemma latinBytes_latinText (bytes : List UInt8) : latinBytes (latinText bytes) = bytes := by
  have hbyte : ∀ byte : UInt8, UInt8.ofNat (Char.ofNat byte.toNat).toNat = byte := by
    intro byte
    have hvalid : byte.toNat.isValidChar := .inl (by have := byte.toNat_lt; omega)
    rw [Char.ofNat, dif_pos hvalid]
    exact UInt8.ofNat_toNat
  simp [latinBytes, latinText, Function.comp_def, hbyte]

end JsonText
