import ThesisTrace.Library.JsonText

/-!
# Reading within a recursion limit

A reader that enters arrays and objects up to a depth only. It reads what the unbounded reader
reads, unless the text nests too deep, and then it says so.
-/

namespace JsonText

variable {F : Type}

inductive ReadError
  | invalid
  | recursion
  deriving DecidableEq, Repr

def orInvalid {α : Type} (value : Option α) : Except ReadError α :=
  value.elim (.error .invalid) .ok

/-- The result of a reader without bound, unless the bound is met first. -/
def ReadsSame {α : Type} (value : α) (result : Except ReadError α) : Prop :=
  result = .ok value ∨ result = .error .recursion

section Definitions

variable (format : FloatFormat F)

/-- A value that holds no others. -/
def readScalar : List Char → Option (Json F × List Char)
  | '"' :: rest =>
    (readString rest.length rest).map fun (text, rest) => (.str (String.ofList text), rest)
  | 'n' :: 'u' :: 'l' :: 'l' :: rest => some (.null, rest)
  | 't' :: 'r' :: 'u' :: 'e' :: rest => some (.bool true, rest)
  | 'f' :: 'a' :: 'l' :: 's' :: 'e' :: rest => some (.bool false, rest)
  | text => readNumber format text

/-- The items up to the closing bracket, at most `count` of them. -/
def readItemsWith (read : List Char → Except ReadError (Json F × List Char)) :
    ℕ → List Char → Except ReadError (List (Json F) × List Char)
  | 0, _ => .error .invalid
  | count + 1, text =>
    match read text with
    | .error e => .error e
    | .ok (item, rest) =>
      match skipBlanks rest with
      | ']' :: rest => .ok ([item], rest)
      | ',' :: rest =>
        (readItemsWith read count (skipBlanks rest)).map fun (items, rest) => (item :: items, rest)
      | _ => .error .invalid

/-- The fields up to the closing brace, at most `count` of them. -/
def readFieldsWith (read : List Char → Except ReadError (Json F × List Char)) :
    ℕ → List Char → Except ReadError (List (String × Json F) × List Char)
  | 0, _ => .error .invalid
  | count + 1, text =>
    match readKey text with
    | none => .error .invalid
    | some (key, rest) =>
      match read rest with
      | .error e => .error e
      | .ok (value, rest) =>
        match skipBlanks rest with
        | '}' :: rest => .ok ([(key, value)], rest)
        | ',' :: rest =>
          (readFieldsWith read count (skipBlanks rest)).map fun (fields, rest) =>
            ((key, value) :: fields, rest)
        | _ => .error .invalid

/-- The value at the start of a text of at most `count` characters, in which at most `depth`
arrays and objects are open at one time. -/
def readWithin (count : ℕ) : ℕ → List Char → Except ReadError (Json F × List Char)
  | 0, '[' :: _ => .error .recursion
  | 0, '{' :: _ => .error .recursion
  | depth + 1, '[' :: rest =>
    match skipBlanks rest with
    | ']' :: rest => .ok (.arr [], rest)
    | rest =>
      (readItemsWith (readWithin count depth) count rest).map fun (items, rest) =>
        (.arr items, rest)
  | depth + 1, '{' :: rest =>
    match skipBlanks rest with
    | '}' :: rest => .ok (.obj [], rest)
    | rest =>
      (readFieldsWith (readWithin count depth) count rest).map fun (fields, rest) =>
        (.obj (fieldsOf fields), rest)
  | _, text => orInvalid (readScalar format text)

/-- The value of a document, within a limit of the recursion. -/
def loadsWithin (limit : ℕ) (text : List Char) : Except ReadError (Json F) :=
  match readWithin format text.length limit (skipBlanks text) with
  | .error e => .error e
  | .ok (value, rest) => if skipBlanks rest = [] then .ok value else .error .invalid

def loadBytesWithin (limit : ℕ) (bytes : List UInt8) : Except ReadError (Json F) :=
  match decodeText bytes with
  | none => .error .invalid
  | some text => loadsWithin format limit text

end Definitions

section Agreement

variable {format : FloatFormat F} {count fuel : ℕ} {text rest : List Char}

lemma ReadsSame.map {α β : Type} {value : α} {result : Except ReadError α}
    (h : ReadsSame value result) (f : α → β) : ReadsSame (f value) (result.map f) := by
  rcases h with rfl | rfl
  · exact .inl rfl
  · exact .inr rfl

/-- Readers that agree on values agree on the items of an array. -/
lemma readItemsWith_same {read : List Char → Except ReadError (Json F × List Char)}
    (hread : ∀ fuel' < fuel, ∀ text value, readValue format fuel' text = some value →
      ReadsSame value (read text))
    {value : List (Json F) × List Char} (h : readItems format fuel text = some value)
    (hcount : fuel ≤ count) : ReadsSame value (readItemsWith read count text) := by
  induction fuel generalizing text value count with
  | zero => cases h
  | succ fuel ih =>
    obtain ⟨count, rfl⟩ : ∃ n, count = n + 1 := ⟨count - 1, by omega⟩
    rw [readItems, Option.bind_eq_some_iff] at h
    obtain ⟨⟨item, rest⟩, hitem, h⟩ := h
    rcases hread fuel (by omega) text _ hitem with hok | hdeep
    · dsimp only at h
      split at h
      · next hrest =>
        cases h
        simp only [readItemsWith, hok, hrest]
        exact .inl rfl
      · next hrest =>
        obtain ⟨items, hitems, rfl⟩ := Option.map_eq_some_iff.mp h
        simp only [readItemsWith, hok, hrest]
        exact (ih (fun fuel' hlt => hread fuel' (Nat.lt_succ_of_lt hlt)) hitems (by omega)).map _
      · cases h
    · simp only [readItemsWith, hdeep]
      exact .inr rfl

/-- Readers that agree on values agree on the fields of an object. -/
lemma readFieldsWith_same {read : List Char → Except ReadError (Json F × List Char)}
    (hread : ∀ fuel' < fuel, ∀ text value, readValue format fuel' text = some value →
      ReadsSame value (read text))
    {value : List (String × Json F) × List Char} (h : readFields format fuel text = some value)
    (hcount : fuel ≤ count) : ReadsSame value (readFieldsWith read count text) := by
  induction fuel generalizing text value count with
  | zero => cases h
  | succ fuel ih =>
    obtain ⟨count, rfl⟩ : ∃ n, count = n + 1 := ⟨count - 1, by omega⟩
    rw [readFields, Option.bind_eq_some_iff] at h
    obtain ⟨⟨key, rest⟩, hkey, h⟩ := h
    obtain ⟨⟨item, rest⟩, hitem, h⟩ := Option.bind_eq_some_iff.mp h
    rcases hread fuel (by omega) _ _ hitem with hok | hdeep
    · dsimp only at h
      split at h
      · next hrest =>
        cases h
        simp only [readFieldsWith, hkey, hok, hrest]
        exact .inl rfl
      · next hrest =>
        obtain ⟨fields, hfields, rfl⟩ := Option.map_eq_some_iff.mp h
        simp only [readFieldsWith, hkey, hok, hrest]
        exact (ih (fun fuel' hlt => hread fuel' (Nat.lt_succ_of_lt hlt)) hfields (by omega)).map _
      · cases h
    · simp only [readFieldsWith, hkey, hdeep]
      exact .inr rfl

lemma readWithin_scalar (depth : ℕ) (harr : ∀ tail, text ≠ '[' :: tail)
    (hobj : ∀ tail, text ≠ '{' :: tail) :
    readWithin format count depth text = orInvalid (readScalar format text) := by
  unfold readWithin
  split
  · exact absurd rfl (harr _)
  · exact absurd rfl (hobj _)
  · exact absurd rfl (harr _)
  · exact absurd rfl (hobj _)
  · rfl

lemma readValue_scalar (harr : ∀ tail, text ≠ '[' :: tail) (hobj : ∀ tail, text ≠ '{' :: tail) :
    readValue format (fuel + 1) text = readScalar format text := by
  unfold readValue readScalar
  split
  · rfl
  · exact absurd rfl (harr _)
  · exact absurd rfl (hobj _)
  · rfl
  · rfl
  · rfl
  · next hstr _ _ hnull htrue hfalse =>
    split
    · exact absurd rfl (hstr _)
    · exact absurd rfl (hnull _)
    · exact absurd rfl (htrue _)
    · exact absurd rfl (hfalse _)
    · rfl

/-- What is read without bound is read within it, or the recursion is too deep. -/
lemma readWithin_same (hcount : fuel ≤ count) (depth : ℕ) {value : Json F × List Char}
    (h : readValue format fuel text = some value) :
    ReadsSame value (readWithin format count depth text) := by
  induction fuel using Nat.strong_induction_on generalizing depth text value with
  | _ fuel ih =>
    cases fuel with
    | zero => cases h
    | succ fuel =>
      have hread (depth : ℕ) : ∀ fuel' < fuel, ∀ text value,
          readValue format fuel' text = some value →
          ReadsSame value (readWithin format count depth text) :=
        fun fuel' hlt text value h => ih fuel' (by omega) (by omega) depth h
      by_cases harr : ∃ tail, text = '[' :: tail
      · obtain ⟨tail, rfl⟩ := harr
        cases depth with
        | zero => exact .inr rfl
        | succ depth =>
          simp only [readValue] at h
          split at h
          · next hrest =>
            cases h
            simp only [readWithin, hrest]
            exact .inl rfl
          · next hclose =>
            obtain ⟨items, hitems, rfl⟩ := Option.map_eq_some_iff.mp h
            simp only [readWithin]
            exact (readItemsWith_same (hread depth) hitems (Nat.le_of_succ_le hcount)).map _
      by_cases hobj : ∃ tail, text = '{' :: tail
      · obtain ⟨tail, rfl⟩ := hobj
        cases depth with
        | zero => exact .inr rfl
        | succ depth =>
          simp only [readValue] at h
          split at h
          · next hrest =>
            cases h
            simp only [readWithin, hrest]
            exact .inl rfl
          · next hclose =>
            obtain ⟨fields, hfields, rfl⟩ := Option.map_eq_some_iff.mp h
            simp only [readWithin]
            exact (readFieldsWith_same (hread depth) hfields (Nat.le_of_succ_le hcount)).map _
      have harr' : ∀ tail, text ≠ '[' :: tail := fun tail htail => harr ⟨tail, htail⟩
      have hobj' : ∀ tail, text ≠ '{' :: tail := fun tail htail => hobj ⟨tail, htail⟩
      rw [readValue_scalar harr' hobj'] at h
      rw [readWithin_scalar depth harr' hobj', h]
      exact .inl rfl

/-- A document that is read without bound is read within it, or the recursion is too deep. -/
theorem loadsWithin_same (limit : ℕ) {v : Json F} (h : loads format text = some v) :
    ReadsSame v (loadsWithin format limit text) := by
  obtain ⟨⟨value, rest⟩, hvalue, h⟩ := Option.bind_eq_some_iff.mp h
  unfold loadsWithin
  rcases readWithin_same le_rfl limit hvalue with hok | hdeep
  · simp only [hok]
    dsimp only at h
    split at h
    · next hrest =>
      cases h
      rw [if_pos hrest]
      exact .inl rfl
    · cases h
  · simp only [hdeep]
    exact .inr rfl

theorem loadBytesWithin_same (limit : ℕ) {bytes : List UInt8} {v : Json F}
    (h : loadBytes format bytes = some v) : ReadsSame v (loadBytesWithin format limit bytes) := by
  obtain ⟨text, htext, h⟩ := Option.bind_eq_some_iff.mp h
  unfold loadBytesWithin
  simp only [htext]
  exact loadsWithin_same limit h

end Agreement

/-! ### Brackets -/

section Brackets

variable (format : FloatFormat F)

/-- Opening brackets beyond the limit. -/
lemma readWithin_brackets {count : ℕ} (hcount : 0 < count) (depth : ℕ) (rest : List Char) :
    readWithin format count depth (List.replicate (depth + 1) '[' ++ rest) = .error .recursion := by
  induction depth with
  | zero => rfl
  | succ depth ih =>
    obtain ⟨count, rfl⟩ : ∃ n, count = n + 1 := ⟨count - 1, by omega⟩
    have hitems : readItemsWith (readWithin format (count + 1) depth) (count + 1)
        ('[' :: (List.replicate depth '[' ++ rest)) = .error .recursion := by
      unfold readItemsWith
      rw [show '[' :: (List.replicate depth '[' ++ rest) =
        List.replicate (depth + 1) '[' ++ rest from rfl, ih]
    have hblanks : skipBlanks ('[' :: (List.replicate depth '[' ++ rest)) =
        '[' :: (List.replicate depth '[' ++ rest) := skipBlanks_cons (by decide)
    rw [List.replicate_succ, List.replicate_succ, List.cons_append, List.cons_append]
    simp only [readWithin, hblanks]
    split
    · next hclose => exact absurd (List.cons.inj hclose).1 (by decide)
    · rw [hitems]
      rfl

theorem loadBytesWithin_brackets {limit n : ℕ} (h : limit < n) :
    loadBytesWithin format limit (encodeText (List.replicate n '[')) = .error .recursion := by
  obtain ⟨k, rfl⟩ : ∃ k, n = limit + 1 + k := ⟨n - (limit + 1), by omega⟩
  have hread := readWithin_brackets format (Nat.succ_pos (limit + k)) limit (List.replicate k '[')
  have hblanks : skipBlanks (List.replicate (limit + 1 + k) '[') =
      List.replicate (limit + 1 + k) '[' := by
    rw [Nat.add_right_comm]
    exact skipBlanks_cons (by decide)
  unfold loadBytesWithin loadsWithin
  rw [decodeText_encodeText]
  dsimp only
  rw [hblanks, List.length_replicate, List.replicate_add, Nat.add_right_comm, hread]

end Brackets

end JsonText
