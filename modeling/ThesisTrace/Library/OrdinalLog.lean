import Mathlib.Data.List.MinMax

/-!
# Append-only rows with consecutive ordinals

A table whose rows carry the ordinals `1, 2, …, n` in insertion order. Selecting the row with
the greatest ordinal is then the same as selecting the last row.
-/

namespace OrdinalLog

variable {Row : Type*} (ordinal : Row → ℕ)

/-- The ordinals of the rows are `1, …, n`, in this order. -/
def Consecutive (rows : List Row) : Prop :=
  rows.map ordinal = List.range' 1 rows.length

@[simp] lemma consecutive_nil : Consecutive ordinal [] := rfl

variable {ordinal}

lemma consecutive_append {rows : List Row} {row : Row} :
    Consecutive ordinal (rows ++ [row]) ↔
      Consecutive ordinal rows ∧ ordinal row = rows.length + 1 := by
  unfold Consecutive
  rw [List.map_append, List.length_append, List.length_singleton, List.range'_1_concat]
  constructor
  · intro h
    obtain ⟨hrows, hrow⟩ := List.append_inj h (by simp)
    exact ⟨hrows, by simpa [Nat.add_comm] using hrow⟩
  · rintro ⟨hrows, hrow⟩
    rw [hrows, List.map_singleton, hrow, Nat.add_comm]

lemma ordinal_le_length {rows : List Row} (h : Consecutive ordinal rows) {row : Row}
    (hrow : row ∈ rows) : ordinal row ≤ rows.length := by
  have hmem : ordinal row ∈ rows.map ordinal := List.mem_map_of_mem hrow
  rw [h, List.mem_range'_1] at hmem
  omega

/-- `ORDER BY ordinal DESC LIMIT 1` selects the last row. -/
theorem argmax_eq_getLast? {rows : List Row} (h : Consecutive ordinal rows) :
    rows.argmax ordinal = rows.getLast? := by
  induction rows using List.reverseRecOn with
  | nil => rfl
  | append_singleton rows row ih =>
    obtain ⟨hrows, hrow⟩ := consecutive_append.mp h
    rw [List.argmax_concat, ih hrows, List.getLast?_concat]
    cases hlast : rows.getLast? with
    | none => rfl
    | some last =>
      have hle := ordinal_le_length hrows (List.mem_of_getLast? hlast)
      have hlt : ordinal last < ordinal row := by omega
      simp only [hlt, if_true]

/-- `coalesce(max(ordinal), 0)` is the number of rows. -/
theorem getLast?_ordinal {rows : List Row} (h : Consecutive ordinal rows) :
    (rows.getLast?.map ordinal).getD 0 = rows.length := by
  induction rows using List.reverseRecOn with
  | nil => rfl
  | append_singleton rows row _ =>
    rw [List.getLast?_concat, Option.map_some, Option.getD_some, (consecutive_append.mp h).2,
      List.length_append, List.length_singleton]

end OrdinalLog
