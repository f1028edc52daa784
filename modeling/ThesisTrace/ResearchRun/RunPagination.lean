import ThesisTrace.Evidence.EventPagination
import ThesisTrace.ResearchRun.Queries

/-!
# Run lists lose no Run

The predicate of a cursor is the strict successor relation of the order of the list, which is
strict and total on Runs with distinct ids. So the pages of a list, each cut at its limit or by the
bytes of the response, together are all matching Runs in their order.
-/

namespace ThesisTrace.ResearchRun.Queries
open Transaction JsonText DecimalText Pagination

/-! ### The order is strict and total -/

section Order

variable {T V : Type} [LinearOrder T] [LinearOrder V] {direction : SortDirection}

lemma before_irrefl (a : SortValue T V) : ¬direction.before a a := by
  cases direction <;> exact lt_irrefl a

lemma before_trans {a b c : SortValue T V} (hab : direction.before a b)
    (hbc : direction.before b c) : direction.before a c := by
  cases direction with
  | ascending => exact lt_trans hab hbc
  | descending => exact lt_trans hbc hab

lemma before_total {a b : SortValue T V} (hne : a ≠ b) :
    direction.before a b ∨ direction.before b a := by
  cases direction with
  | ascending => exact lt_or_gt_of_ne hne
  | descending => exact (lt_or_gt_of_ne hne).symm

lemma nullsLast_irrefl (a : Option (SortValue T V)) : ¬direction.nullsLast a a := by
  cases a with
  | none => exact id
  | some a => exact before_irrefl a

lemma nullsLast_trans {a b c : Option (SortValue T V)} (hab : direction.nullsLast a b)
    (hbc : direction.nullsLast b c) : direction.nullsLast a c := by
  cases a with
  | none => exact hab.elim
  | some a =>
    cases b with
    | none => exact hbc.elim
    | some b =>
      cases c with
      | none => trivial
      | some c => exact before_trans hab hbc

lemma nullsLast_total (direction : SortDirection) {a b : Option (SortValue T V)} (hne : a ≠ b) :
    direction.nullsLast a b ∨ direction.nullsLast b a := by
  cases a with
  | none =>
    cases b with
    | none => exact absurd rfl hne
    | some b => exact .inr trivial
  | some a =>
    cases b with
    | none => exact .inl trivial
    | some b => exact before_total fun h => hne (congrArg some h)

end Order

section Ties

variable {T V : Type} [LinearOrder T] [LinearOrder RunKey] {query : RunQuery V}
  {a b c : RunRecord T V}

lemma tieBefore_irrefl (a : RunRecord T V) : ¬query.tieBefore a.createdAt a.id a := by
  unfold RunQuery.tieBefore
  split
  · exact lt_irrefl _
  · rintro (hlt | ⟨-, hlt⟩)
    · exact lt_irrefl _ hlt
    · exact lt_irrefl _ hlt

lemma tieBefore_trans (hab : query.tieBefore a.createdAt a.id b)
    (hbc : query.tieBefore b.createdAt b.id c) : query.tieBefore a.createdAt a.id c := by
  cases hsort : query.sortBy with
  | createdAt =>
    simp only [RunQuery.tieBefore, hsort] at *
    exact hab.trans hbc
  | metric metric =>
    simp only [RunQuery.tieBefore, hsort] at *
    obtain hab | ⟨hab, hid⟩ := hab
    · obtain hbc | ⟨hbc, -⟩ := hbc
      · exact .inl (hbc.trans hab)
      · exact .inl (hbc ▸ hab)
    · obtain hbc | ⟨hbc, hid'⟩ := hbc
      · exact .inl (hab ▸ hbc)
      · exact .inr ⟨hbc.trans hab, hid.trans hid'⟩

variable [LinearOrder V]

lemma precedes_irrefl (a : RunRecord T V) : ¬query.precedes a a := by
  rintro (hsort | ⟨-, htie⟩)
  · exact nullsLast_irrefl _ hsort
  · exact tieBefore_irrefl a htie

lemma precedes_trans (hab : query.precedes a b) (hbc : query.precedes b c) :
    query.precedes a c := by
  obtain hab | ⟨hab, htie⟩ := hab
  · obtain hbc | ⟨hbc, -⟩ := hbc
    · exact .inl (nullsLast_trans hab hbc)
    · exact .inl (hbc ▸ hab)
  · obtain hbc | ⟨hbc, htie'⟩ := hbc
    · exact .inl (hab ▸ hbc)
    · exact .inr ⟨hab.trans hbc, tieBefore_trans htie htie'⟩

lemma precedes_asymm (hab : query.precedes a b) : ¬query.precedes b a := fun hba =>
  precedes_irrefl a (precedes_trans hab hba)

/-- The columns by which the list is ordered are the same. -/
def SameKey (query : RunQuery V) (a b : RunRecord T V) : Prop :=
  sortValue query a = sortValue query b ∧ a.createdAt = b.createdAt ∧ a.id = b.id

lemma precedes_total (query : RunQuery V) (a b : RunRecord T V) :
    query.precedes a b ∨ query.precedes b a ∨ SameKey query a b := by
  by_cases hsame : sortValue query a = sortValue query b
  · cases hsort : query.sortBy with
    | createdAt =>
      have hcreated : a.createdAt = b.createdAt := by
        simpa [sortValue, hsort, Sum.inlₗ] using hsame
      rcases lt_trichotomy a.id b.id with hid | hid | hid
      · exact .inl (.inr ⟨hsame, by simpa [RunQuery.tieBefore, hsort] using hid⟩)
      · exact .inr (.inr ⟨hsame, hcreated, hid⟩)
      · exact .inr (.inl (.inr ⟨hsame.symm, by simpa [RunQuery.tieBefore, hsort] using hid⟩))
    | metric metric =>
      have htie {x y : RunRecord T V} (hxy : y.createdAt < x.createdAt ∨
          y.createdAt = x.createdAt ∧ x.id < y.id) : query.tieBefore x.createdAt x.id y := by
        simpa [RunQuery.tieBefore, hsort] using hxy
      rcases lt_trichotomy a.createdAt b.createdAt with hlt | heq | hgt
      · exact .inr (.inl (.inr ⟨hsame.symm, htie (.inl hlt)⟩))
      · rcases lt_trichotomy a.id b.id with hid | hid | hid
        · exact .inl (.inr ⟨hsame, htie (.inr ⟨heq.symm, hid⟩)⟩)
        · exact .inr (.inr ⟨hsame, heq, hid⟩)
        · exact .inr (.inl (.inr ⟨hsame.symm, htie (.inr ⟨heq, hid⟩)⟩))
      · exact .inl (.inr ⟨hsame, htie (.inl hgt)⟩)
  · rcases nullsLast_total query.sortDirection hsame with hab | hba
    · exact .inl (.inl hab)
    · exact .inr (.inl (.inl hba))

lemma precedes_congr (h : SameKey query a b) : query.precedes c a ↔ query.precedes c b := by
  obtain ⟨hsort, hcreated, hid⟩ := h
  simp only [RunQuery.precedes, RunQuery.tieBefore, hsort, hcreated, hid]

/-- Rows that are not in the order of the list stay so along a third row. -/
lemma not_precedes_trans (hab : ¬query.precedes b a) (hbc : ¬query.precedes c b) :
    ¬query.precedes c a := by
  intro hca
  rcases precedes_total query a b with h | h | h
  · exact hbc (precedes_trans hca h)
  · exact hab h
  · exact hbc ((precedes_congr h).mp hca)

/-! ### The whole list -/

/-- Runs with distinct ids stand in the order of the list. -/
lemma ordered_pairwise {runs : List (RunRecord T V)} (query : RunQuery V)
    (hids : (runs.map RunRecord.id).Nodup) : (query.ordered runs).Pairwise query.precedes := by
  have hsorted : (query.ordered runs).Pairwise fun a b : RunRecord T V =>
      decide (¬query.precedes b a) = true := by
    apply List.pairwise_mergeSort
    · intro a b c hab hbc
      simp only [decide_eq_true_eq] at hab hbc ⊢
      exact not_precedes_trans hab hbc
    · intro a b
      simp only [Bool.or_eq_true, decide_eq_true_eq]
      by_cases hba : query.precedes b a
      · exact .inr (precedes_asymm hba)
      · exact .inl hba
  have hdistinct : (query.ordered runs).Pairwise fun a b : RunRecord T V => a.id ≠ b.id := by
    have hnodup : ((query.ordered runs).map RunRecord.id).Nodup :=
      ((List.mergeSort_perm _ _).map _).nodup_iff.mpr hids
    exact List.pairwise_map.mp hnodup
  refine hsorted.imp₂ (fun a b hab hne => ?_) hdistinct
  rcases precedes_total query a b with h | h | h
  · exact h
  · exact absurd h (of_decide_eq_true hab)
  · exact absurd h.2.2 hne

/-- The order of some of the Runs is that of all of them. -/
lemma ordered_filter {runs : List (RunRecord T V)} (query : RunQuery V)
    (hids : (runs.map RunRecord.id).Nodup) (p : RunRecord T V → Bool) :
    query.ordered (runs.filter p) = (query.ordered runs).filter p := by
  have hsub : ((runs.filter p).map RunRecord.id).Nodup := hids.sublist (List.filter_sublist.map _)
  refine List.Perm.eq_of_pairwise (fun a b _ _ hab hba => absurd hba (precedes_asymm hab))
    (ordered_pairwise query hsub) ((ordered_pairwise query hids).filter p) ?_
  exact (List.mergeSort_perm _ _).trans ((List.mergeSort_perm _ _).symm.filter p)

end Ties

/-! ### The predicate of a cursor -/

section Cursors

variable {T V : Type}

/-- The position that the cursor of a Run holds. -/
def positionOf (query : RunQuery V) (run : RunRecord T V) : Position T V :=
  match query.sortBy with
  | .createdAt => .createdAt run.createdAt run.id
  | .metric metric => .metric (run.keyMetrics metric) run.createdAt run.id

/-- A cursor leaves exactly the Runs that the Run of the cursor precedes. -/
lemma continues_positionOf [LinearOrder T] [LinearOrder V] [LinearOrder RunKey]
    (query : RunQuery V) (a b : RunRecord T V) :
    query.continues b (positionOf query a) = decide (query.precedes a b) := by
  rw [Bool.eq_iff_iff, decide_eq_true_eq]
  cases hsort : query.sortBy with
  | createdAt =>
    simp only [positionOf, hsort, RunQuery.continues, RunQuery.compares, RunQuery.precedes,
      sortValue, RunQuery.tieBefore, SortDirection.nullsLast, Option.any_some, Bool.or_eq_true,
      Bool.and_eq_true, decide_eq_true_eq]
    exact or_congr_right (and_congr_left' eq_comm)
  | metric metric =>
    simp only [positionOf, hsort, RunQuery.continues, RunQuery.compares, RunQuery.precedes,
      sortValue, RunQuery.tieBefore]
    cases a.keyMetrics metric with
    | none =>
      cases b.keyMetrics metric with
      | none => simp [SortDirection.nullsLast]
      | some value => simp [SortDirection.nullsLast]
    | some number =>
      cases b.keyMetrics metric with
      | none => simp [SortDirection.nullsLast]
      | some value =>
        simp only [Option.map_some, Option.isNone_some, Option.any_some, SortDirection.nullsLast,
          Bool.false_or, Bool.or_eq_true, Bool.and_eq_true, decide_eq_true_eq]
        exact or_congr_right (and_congr_left' eq_comm)

variable [DecidableEq T] [DecidableEq V] (codec : CursorCodec T V)

/-- A cursor is read back as the position of its Run. -/
lemma cursorPosition_encodeCursor (nonce researcherId : Nat) (query : RunQuery V)
    (run : RunRecord T V) :
    cursorPosition codec researcherId query (encodeCursor codec nonce researcherId query run) =
      .ok (positionOf query run) := by
  have hvalue : (cursorValue codec query run).WellFormed := by
    unfold cursorValue
    split
    · trivial
    · split <;> trivial
  have hpayload : loadBytes codec.format
      (dumpBytes codec.format true (cursorPayload codec researcherId query run)) =
      some (cursorPayload codec researcherId query run) :=
    loadBytes_dumpBytes _ ⟨by simp, trivial, trivial, trivial, trivial, trivial, hvalue, trivial⟩
  have hcheck : cursorPosition codec researcherId query
      (encodeCursor codec nonce researcherId query run) =
      checkPayload codec researcherId query
        [("version", .int 1), ("researcher", .str (codec.researcherText researcherId)),
          ("query", .str (codec.queryFingerprint query)), ("id", .str run.id.text),
          ("created_at", .str (codec.isoformat run.createdAt)),
          ("value", cursorValue codec query run)] := by
    rw [cursorPosition, encodeCursor, codec.decrypt_encrypt, found, ok_bind, hpayload]
    rfl
  rw [hcheck]
  unfold checkPayload
  cases hsort : query.sortBy with
  | createdAt =>
    simp [lookup, equalsOne, equalsText, timeOf, idOf, cursorValue, hsort, positionOf,
      codec.fromisoformat_isoformat, run.id.nonempty, found, require]
  | metric metric =>
    cases hmetric : run.keyMetrics metric with
    | none =>
      simp [lookup, equalsOne, equalsText, timeOf, idOf, numberOf, cursorValue, hsort, hmetric,
        positionOf, codec.fromisoformat_isoformat, run.id.nonempty, found, require]
    | some value =>
      simp [lookup, equalsOne, equalsText, timeOf, idOf, numberOf, cursorValue, hsort, hmetric,
        positionOf, codec.fromisoformat_isoformat, run.id.nonempty, found, require]

end Cursors

/-! ### Pages -/

section Pages

variable {T V : Type} [LinearOrder T] [LinearOrder V] [LinearOrder RunKey]
  (lower : String → String) (codec : CursorCodec T V) (runs : List (RunRecord T V))
  (researcherId : Nat) (query : RunQuery V)

/-- The matching Runs in the order of the list. -/
def wholeList : List (RunRecord T V) :=
  query.ordered (runs.filter fun run => query.matches lower researcherId run)

/-- The Runs that a cursor leaves. -/
def leftAt (cursor : Option String) : List (RunRecord T V) :=
  match cursor with
  | none => wholeList lower runs researcherId query
  | some token =>
    match cursorPosition codec researcherId query token with
    | .ok position => (wholeList lower runs researcherId query).filter (query.continues · position)
    | .error _ => []

/-- A cursor that the list gave out leaves some last part of it. -/
def GivenOut (cursor : Option String) : Prop :=
  cursor = none ∨ ∃ nonce i, ∃ hi : i < (wholeList lower runs researcherId query).length,
    cursor = some (encodeCursor codec nonce researcherId query
      (wholeList lower runs researcherId query)[i])

variable {lower codec runs researcherId query}

lemma wholeList_pairwise (hids : (runs.map RunRecord.id).Nodup) :
    (wholeList lower runs researcherId query).Pairwise query.precedes :=
  ordered_pairwise query (hids.sublist (List.filter_sublist.map _))

/-- The rows read at a position are the first ones of those it leaves. -/
lemma queryRows_eq (hids : (runs.map RunRecord.id).Nodup) (limit : Nat)
    (position : Option (Position T V)) :
    queryRows lower runs researcherId query limit position =
      ((wholeList lower runs researcherId query).filter
        fun run => position.all (query.continues run)).take limit := by
  unfold queryRows wholeList
  dsimp only
  rw [ordered_filter query (hids.sublist (List.filter_sublist.map _))]

/-- The cursor of a row leaves the rows behind it. -/
lemma leftAt_encodeCursor (hids : (runs.map RunRecord.id).Nodup) (nonce : Nat) {i : Nat}
    (hi : i < (wholeList lower runs researcherId query).length) :
    leftAt lower codec runs researcherId query (some (encodeCursor codec nonce researcherId query
      (wholeList lower runs researcherId query)[i])) =
    (wholeList lower runs researcherId query).drop (i + 1) := by
  simp only [leftAt, cursorPosition_encodeCursor, continues_positionOf]
  exact filter_getElem_of_pairwise (fun _ _ => precedes_asymm) (wholeList_pairwise hids) hi

lemma GivenOut.exists_drop (hids : (runs.map RunRecord.id).Nodup) {cursor : Option String}
    (h : GivenOut lower codec runs researcherId query cursor) :
    ∃ k, leftAt lower codec runs researcherId query cursor =
      (wholeList lower runs researcherId query).drop k := by
  rcases h with rfl | ⟨nonce, i, hi, rfl⟩
  · exact ⟨0, List.drop_zero.symm⟩
  · exact ⟨i + 1, leftAt_encodeCursor hids nonce hi⟩

/-- The position of a cursor that the list gave out leaves what the cursor leaves. -/
lemma GivenOut.position {cursor : Option String}
    (h : GivenOut lower codec runs researcherId query cursor) :
    ∃ position, requestedPosition codec researcherId query cursor = .ok position ∧
      leftAt lower codec runs researcherId query cursor =
        (wholeList lower runs researcherId query).filter
          fun run => position.all (query.continues run) := by
  rcases h with rfl | ⟨nonce, i, hi, rfl⟩
  · exact ⟨none, rfl, (List.filter_true _).symm⟩
  · refine ⟨some (positionOf query (wholeList lower runs researcherId query)[i]), ?_, ?_⟩
    · rw [requestedPosition, cursorPosition_encodeCursor]
      rfl
    · simp only [leftAt, cursorPosition_encodeCursor, Option.all_some]

/-- The page of the first Runs that a cursor leaves, of which at least one is kept, splits them. -/
lemma keptPage_splits (hids : (runs.map RunRecord.id).Nodup) (nonce : Nat) {limit n : Nat}
    {cursor : Option String} (hgiven : GivenOut lower codec runs researcherId query cursor)
    (hn : leftAt lower codec runs researcherId query cursor ≠ [] → 0 < n) (hle : n ≤ limit) :
    Splits (leftAt lower codec runs researcherId query)
      (fun c => (leftAt lower codec runs researcherId query c).length)
      (GivenOut lower codec runs researcherId query) cursor
      (keptPage codec ((leftAt lower codec runs researcherId query cursor).take (limit + 1)) nonce
        researcherId query ((leftAt lower codec runs researcherId query cursor).take n)) := by
  obtain ⟨k, hdrop⟩ := hgiven.exists_drop hids
  generalize hrest : leftAt lower codec runs researcherId query cursor = rest at *
  by_cases hmore : n < rest.length
  · have hpos : 0 < n := hn (List.ne_nil_of_length_pos (by omega))
    have hlength : (rest.take n).length = n := by rw [List.length_take]; omega
    have hkept : rest.take n ≠ [] ∧ (rest.take n).length < (rest.take (limit + 1)).length := by
      refine ⟨List.ne_nil_of_length_pos (by omega), ?_⟩
      rw [hlength, List.length_take]
      omega
    have hindex : k + (n - 1) < (wholeList lower runs researcherId query).length := by
      rw [hdrop, List.length_drop] at hmore
      omega
    have hrow : (rest.take (limit + 1))[n - 1]? =
        some (wholeList lower runs researcherId query)[k + (n - 1)] := by
      rw [List.getElem?_take_of_lt (by omega), hdrop, List.getElem?_drop,
        List.getElem?_eq_getElem hindex]
    have hnext : leftAt lower codec runs researcherId query (some (encodeCursor codec nonce
        researcherId query (wholeList lower runs researcherId query)[k + (n - 1)])) =
        rest.drop n := by
      rw [leftAt_encodeCursor hids nonce hindex, hdrop, List.drop_drop]
      congr 1
      omega
    have hpage : (keptPage codec (rest.take (limit + 1)) nonce researcherId query
        (rest.take n)).next = some (encodeCursor codec nonce researcherId query
          (wholeList lower runs researcherId query)[k + (n - 1)]) := by
      unfold keptPage
      rw [if_pos hkept, hlength, hrow, Option.map_some]
    unfold Splits
    simp only [hpage, hnext, hrest]
    refine ⟨(List.take_append_drop n rest).symm, ?_, .inr ⟨nonce, _, hindex, rfl⟩⟩
    rw [List.length_drop]
    omega
  · have hall : rest.take n = rest := List.take_of_length_le (by omega)
    have hpage : (keptPage codec (rest.take (limit + 1)) nonce researcherId query
        (rest.take n)).next = none := by
      unfold keptPage
      rw [if_neg]
      rintro ⟨-, hlt⟩
      rw [hall, List.length_take] at hlt
      omega
    unfold Splits
    simp only [hpage, hrest]
    exact hall.symm

/-- A page splits the Runs that its cursor leaves. -/
lemma listRuns_splits (hids : (runs.map RunRecord.id).Nodup) (nonce : Nat) {limit : Nat}
    (hlimit : 1 ≤ limit ∧ limit ≤ 50) {fits : Page String (RunRecord T V) → Bool}
    (hfits : ∀ page, page.rows.length ≤ 1 → fits page = true) {cursor : Option String}
    (hgiven : GivenOut lower codec runs researcherId query cursor) :
    ∃ page, listRuns lower codec runs researcherId query nonce limit fits cursor = .ok page ∧
      Splits (leftAt lower codec runs researcherId query)
        (fun c => (leftAt lower codec runs researcherId query c).length)
        (GivenOut lower codec runs researcherId query) cursor page := by
  obtain ⟨position, hposition, hleft⟩ := hgiven.position
  have hrecords : queryRows lower runs researcherId query (limit + 1) position =
      (leftAt lower codec runs researcherId query cursor).take (limit + 1) := by
    rw [queryRows_eq hids, hleft]
  have hfirst : ∃ kept, Evidence.fitPage
      (fun kept => fits (keptPage codec
        ((leftAt lower codec runs researcherId query cursor).take (limit + 1)) nonce researcherId
        query kept))
      (((leftAt lower codec runs researcherId query cursor).take (limit + 1)).take limit) =
        some kept :=
    Evidence.fitPage_isSome (hfits _ (by simp [keptPage]))
  obtain ⟨kept, hkept⟩ := hfirst
  refine ⟨keptPage codec ((leftAt lower codec runs researcherId query cursor).take (limit + 1))
    nonce researcherId query kept, ?_, ?_⟩
  · unfold listRuns
    rw [(require_ok_iff (u := ())).mpr hlimit, hposition]
    simp only [bind, Except.bind, hrecords, hkept]
    rfl
  · obtain ⟨n, rfl, hpos⟩ := Evidence.fitPage_prefix hkept
    rw [List.take_take, List.take_take, ← min_assoc] at *
    refine keptPage_splits hids nonce hgiven (fun hne => ?_) (by omega)
    have hn : 0 < n := hpos ?_
    · omega
    · simpa using ⟨by omega, hne⟩

/-- The pages of a list are together all matching Runs, each once and in the order of the list. -/
theorem run_list_lossless (lower : String → String) (codec : CursorCodec T V)
    (runs : List (RunRecord T V)) (hids : (runs.map RunRecord.id).Nodup) (researcherId : Nat)
    (query : RunQuery V) (limits : Nat → Nat) (hlimits : ∀ i, 1 ≤ limits i ∧ limits i ≤ 50)
    (fits : Nat → Page String (RunRecord T V) → Bool)
    (hfits : ∀ i page, page.rows.length ≤ 1 → fits i page = true) :
    ∃ rows, follow (fun i cursor => listRuns lower codec runs researcherId query i (limits i)
        (fits i) cursor) (runs.length + 1) 0 none = .ok (some rows) ∧
      rows.Perm (runs.filter fun run => query.matches lower researcherId run) ∧
      rows.Pairwise query.precedes := by
  refine ⟨leftAt lower codec runs researcherId query none, ?_, List.mergeSort_perm _ _,
    wholeList_pairwise hids⟩
  refine follow_lossless (fun i c hc => listRuns_splits hids i (hlimits i) (hfits i) hc) 0
    (.inl rfl) ?_
  have hlength : (wholeList lower runs researcherId query).length ≤ runs.length := by
    rw [wholeList, RunQuery.ordered, (List.mergeSort_perm _ _).length_eq]
    exact List.length_filter_le _ _
  exact Nat.lt_succ_of_le hlength

end Pages

/-- Whole numbers, written as floats. -/
def wholeFormat : FloatFormat ℕ where
  repr n := Nat.toDigits 10 n ++ ['.', '0']
  read text := readDigits (text.dropLast.dropLast)
  match_repr n rest hrest := by
    refine ⟨⟨Nat.toDigits 10 n, ['.', '0'], []⟩, ?_, List.append_nil _, rfl⟩
    have hwhole : matchWhole (Nat.toDigits 10 n ++ '.' :: '0' :: rest) =
        some (Nat.toDigits 10 n, '.' :: '0' :: rest) :=
      matchWhole_toDigits n fun c hc => by cases hc; rfl
    have hfraction : matchFraction ('.' :: '0' :: rest) = (['.', '0'], rest) := by
      have hzero : ∀ c ∈ ['0'], c.isDigit = true := fun c hc => by
        rw [List.mem_singleton.mp hc]
        rfl
      have hdigit : ∀ c ∈ rest.head?, c.isDigit = false := fun c hc => (hrest c hc).1
      rw [matchFraction, show '0' :: rest = ['0'] ++ rest from rfl, digitsOf_append hzero hdigit,
        afterDigits_append hzero hdigit]
      rfl
    rw [List.append_assoc, matchNumber, matchSign_toDigits]
    simp only [List.cons_append, List.nil_append, hwhole, hfraction,
      matchExponent_of_delimited hrest, Option.map_some]
  read_repr n := by
    have htext : (Nat.toDigits 10 n ++ ['.', '0']).dropLast.dropLast = Nat.toDigits 10 n := by
      rw [show ['.', '0'] = ['.'] ++ ['0'] from rfl, ← List.append_assoc, List.dropLast_concat,
        List.dropLast_concat]
    rw [htext, readDigits_toDigits]

/-- Times as decimals and a cipher that shows its message. -/
def plainCodec : CursorCodec ℕ ℕ where
  format := wholeFormat
  ofInt := Int.toNat
  isoformat time := String.ofList (Nat.toDigits 10 time)
  fromisoformat text := readDigits text.toList
  researcherText researcher := String.ofList (Nat.toDigits 10 researcher)
  queryFingerprint _ := "query"
  encrypt nonce bytes := latinText (UInt8.ofNat nonce :: bytes)
  decrypt text := some (latinBytes text).tail
  fromisoformat_isoformat time := by simp [readDigits_toDigits]
  decrypt_encrypt nonce bytes := by rw [latinBytes_latinText, List.tail_cons]

/-- The order of the C collation. -/
instance : LinearOrder RunKey :=
  LinearOrder.lift' RunKey.text fun a b h => by cases a; cases b; cases h; rfl

/-- A Run with a Sharpe ratio, unless it has none. -/
def sampleRun (id : String) (hid : id ≠ "") (createdAt : ℕ) (sharpe : Option ℕ) :
    RunRecord ℕ ℕ where
  researcherId := 1
  id := ⟨id, hid⟩
  folderId := "folder"
  researchKind := "strategy"
  status := "succeeded"
  universeName := "csi300"
  requestedStartDate := 1
  requestedEndDate := 9
  name := "momentum"
  searchNotes := none
  searchFormula := none
  createdAt := createdAt
  keyMetrics metric := if metric = .sharpe then sharpe else none

def sampleQuery : RunQuery ℕ where
  folderId := none
  researchKind := some "strategy"
  status := none
  search := none
  researchPeriod := none
  universeName := none
  metricFilters := []
  sortBy := .metric .sharpe
  sortDirection := .descending

theorem run_list_lossless_sample :
    let first := sampleRun "run_a" (by decide) 3 none
    let second := sampleRun "run_b" (by decide) 4 (some 2)
    let third := sampleRun "run_c" (by decide) 5 (some 2)
    ∃ rows, follow (fun i cursor => listRuns id plainCodec [first, second, third] 1 sampleQuery i 2
        (fun page => decide (page.rows.length ≤ 1)) cursor) 4 0 none = .ok (some rows) ∧
      rows.map RunRecord.id = [third.id, second.id, first.id] := by
  intro first second third
  obtain ⟨rows, hpages, hperm, hordered⟩ := run_list_lossless id plainCodec [first, second, third]
    (by decide) 1 sampleQuery (fun _ => 2) (fun _ => by decide)
    (fun _ page => decide (page.rows.length ≤ 1)) fun _ _ h => decide_eq_true h
  have hmatches : ([first, second, third].filter fun run => sampleQuery.matches id 1 run) =
      [first, second, third] :=
    List.filter_eq_self.mpr (by simp [first, second, third, sampleRun, sampleQuery,
      RunQuery.matches])
  rw [hmatches] at hperm
  refine ⟨rows, hpages, ?_⟩
  have hrows : rows = [third, second, first] := by
    refine List.Perm.eq_of_pairwise (fun a b _ _ hab hba => absurd hba (precedes_asymm hab))
      hordered (by decide) (hperm.trans ?_)
    exact ((List.Perm.swap second first _).trans ((List.Perm.swap third first []).cons second)).trans
      (List.Perm.swap third second [first])
  rw [hrows]
  rfl

end ThesisTrace.ResearchRun.Queries
