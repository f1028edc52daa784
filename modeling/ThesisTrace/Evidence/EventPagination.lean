import ThesisTrace.Evidence.EventPages

/-!
# Event page pagination is lossless

Every page read splits the rows that are left at its cursor into the rows it returns and those
left at the next cursor, whichever of the row limit, the partition budget and the response bytes
ends the page.
-/

namespace ThesisTrace.Evidence
open Pagination

/-! ### Rows in order -/

namespace EventPartition

variable {part : EventPartition} {row : EventRow}

lemma le_last (hrow : row ∈ part.rows) : eventOrder row ≤ part.last := by
  obtain ⟨i, hi, rfl⟩ := List.getElem_of_mem hrow
  unfold last
  rw [List.getLast_eq_getElem]
  rcases Nat.lt_or_ge i (part.rows.length - 1) with hlt | hge
  · exact (List.pairwise_iff_getElem.mp part.ordered i _ hi (by omega) hlt).le
  · have heq : i = part.rows.length - 1 := by omega
    subst heq
    exact le_rfl

lemma first_le (hrow : row ∈ part.rows) : part.first ≤ eventOrder row := by
  obtain ⟨i, hi, rfl⟩ := List.getElem_of_mem hrow
  unfold first
  rw [← List.getElem_zero (List.length_pos_iff.mpr part.nonempty)]
  rcases Nat.eq_zero_or_pos i with rfl | hpos
  · exact le_rfl
  · exact (List.pairwise_iff_getElem.mp part.ordered 0 i _ hi hpos).le

lemma last_mem : ∃ row ∈ part.rows, eventOrder row = part.last :=
  ⟨_, List.getLast_mem part.nonempty, rfl⟩

end EventPartition

lemma session_mono {a b : EventKey} (h : a ≤ b) : a.session ≤ b.session :=
  Prod.Lex.monotone_fst a b h

lemma rows_ordered {parts : List EventPartition}
    (h : parts.Pairwise fun a b => a.last < b.first) :
    (parts.flatMap EventPartition.rows).Pairwise fun a b => eventOrder a < eventOrder b := by
  rw [List.pairwise_flatMap]
  refine ⟨fun part _ => part.ordered, h.imp fun hlt a ha b hb => ?_⟩
  exact lt_of_le_of_lt (EventPartition.le_last ha) (lt_of_lt_of_le hlt (EventPartition.first_le hb))

/-! ### The scan -/

section Scan

variable {section_ : EventSection} {query : StrategyEventQuery} {boundary : Option EventKey}

lemma eventMatches_start {row : EventRow} {filters : EventFilters}
    (h : eventMatches row section_ filters = true) {start : Session}
    (hstart : filters.startSession = some start) : start ≤ row.session := by
  simp only [eventMatches, hstart, Option.any_some, Bool.and_eq_true, Bool.not_eq_true',
    decide_eq_false_iff_not, not_lt] at h
  exact h.1.1.1

lemma eventMatches_stop {row : EventRow} {filters : EventFilters}
    (h : eventMatches row section_ filters = true) {stop : Session}
    (hstop : filters.endSession = some stop) : row.session ≤ stop := by
  simp only [eventMatches, hstop, Option.any_some, Bool.and_eq_true, Bool.not_eq_true',
    decide_eq_false_iff_not, not_lt] at h
  exact h.1.1.2

/-- The row loop returns as soon as the rows exceed the limit. -/
lemma scanRows_eq (hpos : 0 < query.limit) (values rows : List EventRow) (h : rows.length ≤ query.limit) :
    scanRows section_ query boundary values rows =
      if query.limit < (rows ++ values.filter (selected section_ query boundary)).length then
        .error ⟨.recorded,
          (rows ++ values.filter (selected section_ query boundary)).take query.limit,
          (rows ++ values.filter (selected section_ query boundary))[query.limit - 1]?.map
            eventOrder⟩
      else .ok (rows ++ values.filter (selected section_ query boundary)) := by
  induction values generalizing rows with
  | nil =>
    have hlt : ¬query.limit < rows.length := by omega
    simp [scanRows, hlt]
  | cons row values ih =>
    unfold scanRows
    by_cases hrow : selected section_ query boundary row = true
    · rw [if_pos hrow, List.filter_cons_of_pos hrow]
      by_cases hlimit : query.limit < (rows ++ [row]).length
      · have hlength : rows.length = query.limit := by
          rw [List.length_append, List.length_singleton] at hlimit
          omega
        have hlong : query.limit <
            (rows ++ row :: values.filter (selected section_ query boundary)).length := by
          rw [List.length_append, List.length_cons]
          omega
        rw [if_pos hlimit, if_pos hlong, List.take_append_of_le_length (by omega),
          List.take_append_of_le_length (by omega), List.getElem?_append_left (by omega),
          List.getElem?_append_left (by omega)]
      · rw [if_neg hlimit, ih _ (by omega), List.append_assoc, List.singleton_append]
    · rw [if_neg hrow, List.filter_cons_of_neg hrow, ih _ h]

/-- A page read at the boundary splits the rows of the section that are left. -/
def PageSplits (section_ : EventSection) (query : StrategyEventQuery) (boundary : Option EventKey)
    (whole : List EventRow) (page : StrategyEventPageRead) : Prop :=
  match page.nextAfter with
  | none => whole.filter (selected section_ query boundary) = page.rows
  | some k =>
    whole.filter (selected section_ query boundary) =
      page.rows ++ whole.filter (selected section_ query (some k)) ∧
    Reaches eventOrder boundary (some k) ∧
    ∃ row ∈ whole, after eventOrder boundary row = true ∧ after eventOrder (some k) row = false

/-- Later cursors select among the rows that earlier ones selected. -/
lemma selected_of_reaches {k : EventKey} (h : Reaches eventOrder boundary (some k))
    (row : EventRow) :
    selected section_ query (some k) row =
      (after eventOrder (some k) row && selected section_ query boundary row) := by
  unfold selected
  by_cases hrow : after eventOrder (some k) row = true
  · rw [hrow, h row hrow]
    rfl
  · rw [Bool.not_eq_true] at hrow
    rw [hrow]
    rfl

/-- A page that ends after any of the rows that are left. -/
lemma pageSplits_take {whole : List EventRow}
    (hsorted : whole.Pairwise fun a b => eventOrder a < eventOrder b) (status : EvidenceStatus)
    {n : ℕ} (hpos : 0 < n)
    (hle : n ≤ (whole.filter (selected section_ query boundary)).length) :
    PageSplits section_ query boundary whole
      ⟨status, (whole.filter (selected section_ query boundary)).take n,
        (whole.filter (selected section_ query boundary))[n - 1]?.map eventOrder⟩ := by
  generalize hleft : whole.filter (selected section_ query boundary) = left at hle ⊢
  have hindex : n - 1 < left.length := by omega
  have hmem : left[n - 1] ∈ whole.filter (selected section_ query boundary) :=
    hleft ▸ List.getElem_mem hindex
  obtain ⟨hwhole, hselected⟩ := List.mem_filter.mp hmem
  have hafter : after eventOrder boundary left[n - 1] = true :=
    (Bool.and_eq_true_iff.mp hselected).1
  have hreaches : Reaches eventOrder boundary (some (eventOrder left[n - 1])) := by
    cases boundary with
    | none => exact fun _ _ => rfl
    | some b => exact reaches_of_le (of_decide_eq_true hafter).le
  have hdrop : whole.filter (selected section_ query (some (eventOrder left[n - 1])))
      = left.drop n := by
    have hsublist : left.Pairwise fun a b => eventOrder a < eventOrder b :=
      hleft ▸ hsorted.filter _
    rw [List.filter_congr fun row _ => selected_of_reaches hreaches row, ← List.filter_filter,
      hleft, filter_after_getElem hsublist hindex, Nat.sub_add_cancel hpos]
  unfold PageSplits
  rw [List.getElem?_eq_getElem hindex]
  simp only [Option.map_some]
  refine ⟨?_, hreaches, _, hwhole, hafter, ?_⟩
  · rw [hleft, hdrop, List.take_append_drop]
  · simp

/-- The scan from any partition on. The rows before it have been searched up to `lastScanned`, and
an empty budget means that some partition has been scanned. -/
lemma scanPartitions_splits (hpos : 0 < query.limit) (parts : List EventPartition) {done rows : List EventRow}
    {budget : ℕ} {lastScanned : Option EventKey}
    (hordered : parts.Pairwise fun a b => a.last < b.first)
    (hsorted : (done ++ parts.flatMap EventPartition.rows).Pairwise
      fun a b => eventOrder a < eventOrder b)
    (hrows : rows = done.filter (selected section_ query boundary))
    (hlimit : rows.length ≤ query.limit) (hreaches : Reaches eventOrder boundary lastScanned)
    (hdone : ∀ row ∈ done, eventMatches row section_ query.filters = true →
      after eventOrder lastScanned row = false)
    (hparts : ∀ row ∈ parts.flatMap EventPartition.rows,
      selected section_ query boundary row = true → after eventOrder lastScanned row = true)
    (hbudget : budget = 0 → ∃ row ∈ done, after eventOrder boundary row = true ∧
      after eventOrder lastScanned row = false) :
    ∃ page left, scanPartitions section_ query boundary parts budget lastScanned rows
        = .ok (page, left) ∧ page.status = .recorded ∧ page.rows.length ≤ query.limit ∧
      PageSplits section_ query boundary (done ++ parts.flatMap EventPartition.rows) page := by
  induction parts generalizing done rows budget lastScanned with
  | nil =>
    refine ⟨_, _, rfl, rfl, hlimit, ?_⟩
    simp [PageSplits, hrows]
  | cons part parts ih =>
    obtain ⟨hfirst, hordered⟩ := List.pairwise_cons.mp hordered
    rw [List.flatMap_cons, ← List.append_assoc] at hsorted ⊢
    rw [List.flatMap_cons] at hparts
    -- a partition without selected rows is skipped
    have hskip : part.rows.filter (selected section_ query boundary) = [] →
        (∀ row ∈ part.rows, eventMatches row section_ query.filters = true →
          after eventOrder lastScanned row = false) →
        ∃ page left, scanPartitions section_ query boundary parts budget lastScanned rows
            = .ok (page, left) ∧ page.status = .recorded ∧ page.rows.length ≤ query.limit ∧
          PageSplits section_ query boundary
            (done ++ part.rows ++ parts.flatMap EventPartition.rows) page := by
      intro hnone hpart
      refine ih hordered hsorted ?_ hlimit hreaches ?_ ?_ ?_
      · rw [List.filter_append, hnone, List.append_nil, hrows]
      · intro row hrow hmatches
        rcases List.mem_append.mp hrow with hold | hnew
        · exact hdone row hold hmatches
        · exact hpart row hnew hmatches
      · exact fun row hrow => hparts row (List.mem_append_right _ hrow)
      · intro hzero
        obtain ⟨row, hrow, hbefore, hpast⟩ := hbudget hzero
        exact ⟨row, List.mem_append_left _ hrow, hbefore, hpast⟩
    unfold scanPartitions
    split
    · next hcursor =>
      -- every row lies at or before the cursor
      obtain ⟨b, rfl, hle⟩ := (Option.any_eq_true _ _).mp hcursor
      have hnot : ∀ row ∈ part.rows, after eventOrder (some b) row = false := by
        intro row hrow
        simpa using (EventPartition.le_last hrow).trans (of_decide_eq_true hle)
      refine hskip (List.filter_eq_nil_iff.mpr fun row hrow => ?_) fun row hrow _ => ?_
      · simp [selected, hnot row hrow]
      · by_contra hafter
        exact Bool.false_ne_true
          ((hnot row hrow).symm.trans (hreaches row (Bool.eq_true_of_not_eq_false hafter)))
    next hcursor =>
    split
    · next hstart =>
      obtain ⟨start, hfilter, hlt⟩ := (Option.any_eq_true _ _).mp hstart
      have hnone : ∀ row ∈ part.rows, ¬eventMatches row section_ query.filters = true := by
        intro row hrow hmatches
        have hle : row.session ≤ part.last.session :=
          session_mono (EventPartition.le_last hrow)
        exact absurd ((eventMatches_start hmatches hfilter).trans hle)
          (not_le.mpr (of_decide_eq_true hlt))
      refine hskip (List.filter_eq_nil_iff.mpr fun row hrow hselected => ?_)
        fun row hrow hmatches => absurd hmatches (hnone row hrow)
      exact hnone row hrow (Bool.and_eq_true_iff.mp hselected).2
    next hstart =>
    split
    · next hstop =>
      -- so do the rows of all later partitions
      obtain ⟨stop, hfilter, hlt⟩ := (Option.any_eq_true _ _).mp hstop
      refine ⟨_, _, rfl, rfl, hlimit, ?_⟩
      have hnone : ∀ row ∈ part.rows ++ parts.flatMap EventPartition.rows,
          ¬selected section_ query boundary row = true := by
        intro row hrow hselected
        have hmatches := (Bool.and_eq_true_iff.mp hselected).2
        have hle : part.first ≤ eventOrder row := by
          rcases List.mem_append.mp hrow with hhere | hlater
          · exact EventPartition.first_le hhere
          · obtain ⟨other, hother, hmem⟩ := List.mem_flatMap.mp hlater
            obtain ⟨row', hrow', -⟩ := part.last_mem
            exact (EventPartition.first_le hrow').trans ((EventPartition.le_last hrow').trans
              ((hfirst other hother).le.trans (EventPartition.first_le hmem)))
        have hsession : part.first.session ≤ row.session := session_mono hle
        exact absurd (hsession.trans (eventMatches_stop hmatches hfilter))
          (not_le.mpr (of_decide_eq_true hlt))
      show _ = _
      rw [List.append_assoc, List.filter_append, List.filter_eq_nil_iff.mpr hnone,
        List.append_nil, hrows]
    next hstop =>
    have hfront : ∀ row ∈ done ++ part.rows, eventOrder row ≤ part.last := by
      intro row hrow
      rcases List.mem_append.mp hrow with hold | hnew
      · obtain ⟨row', hrow', heq⟩ := part.last_mem
        rw [List.append_assoc] at hsorted
        have hlt := (List.pairwise_append.mp hsorted).2.2 row hold row'
          (List.mem_append_left _ hrow')
        exact heq ▸ hlt.le
      · exact EventPartition.le_last hnew
    have hbehind : ∀ row ∈ parts.flatMap EventPartition.rows, part.last < eventOrder row := by
      intro row hrow
      obtain ⟨other, hother, hmem⟩ := List.mem_flatMap.mp hrow
      exact lt_of_lt_of_le (hfirst other hother) (EventPartition.first_le hmem)
    cases budget with
    | zero =>
      obtain ⟨row, hrow, hbefore, hpast⟩ := hbudget rfl
      cases lastScanned with
      | none => simp at hpast
      | some key =>
        refine ⟨_, _, rfl, rfl, hlimit, ?_, hreaches, row, ?_, hbefore, hpast⟩
        · have hempty : done.filter (selected section_ query (some key)) = [] := by
            refine List.filter_eq_nil_iff.mpr fun row hrow hselected => ?_
            have hboth := Bool.and_eq_true_iff.mp hselected
            exact Bool.false_ne_true ((hdone row hrow hboth.2).symm.trans hboth.1)
          have hsame : (part.rows ++ parts.flatMap EventPartition.rows).filter
              (selected section_ query (some key)) =
              (part.rows ++ parts.flatMap EventPartition.rows).filter
                (selected section_ query boundary) := by
            refine List.filter_congr fun row hrow => ?_
            rw [selected_of_reaches hreaches]
            cases hselected : selected section_ query boundary row with
            | false => rw [Bool.and_false]
            | true => rw [hparts row hrow hselected, Bool.and_true]
          have hleft : (done ++ (part.rows ++ parts.flatMap EventPartition.rows)).filter
              (selected section_ query (some key)) =
              (part.rows ++ parts.flatMap EventPartition.rows).filter
                (selected section_ query boundary) := by
            rw [List.filter_append, hempty, hsame, List.nil_append]
          rw [List.append_assoc, hleft, List.filter_append, hrows]
        · rw [List.append_assoc]
          exact List.mem_append_left _ hrow
    | succ budget =>
      have hall : rows ++ part.rows.filter (selected section_ query boundary)
          = (done ++ part.rows).filter (selected section_ query boundary) := by
        rw [List.filter_append, hrows]
      simp only [scanRows_eq hpos part.rows rows hlimit, hall]
      have hafter : ∀ row, part.last ≤ eventOrder row → after eventOrder boundary row = true := by
        intro row hrow
        cases boundary with
        | none => rfl
        | some b =>
          have hlt : b < part.last := not_le.mp (by simpa using hcursor)
          exact decide_eq_true (lt_of_lt_of_le hlt hrow)
      have hnext : Reaches eventOrder boundary (some part.last) :=
        fun row hrow => hafter row (of_decide_eq_true hrow).le
      by_cases hlong : query.limit <
          ((done ++ part.rows).filter (selected section_ query boundary)).length
      · rw [if_pos hlong]
        refine ⟨_, _, rfl, rfl, List.length_take_le _ _, ?_⟩
        have hwhole : PageSplits section_ query boundary _ _ :=
          pageSplits_take hsorted .recorded hpos
            (by rw [List.filter_append, List.length_append]; omega)
        rwa [List.filter_append, List.take_append_of_le_length hlong.le,
          List.getElem?_append_left (by omega)] at hwhole
      · rw [if_neg hlong]
        refine ih hordered hsorted rfl (not_lt.mp hlong) hnext ?_ ?_ ?_
        · exact fun row hrow _ => by simpa using hfront row hrow
        · exact fun row hrow _ => by simpa using hbehind row hrow
        · obtain ⟨row, hrow, heq⟩ := part.last_mem
          exact fun _ => ⟨row, List.mem_append_right _ hrow, hafter row heq.ge, by simp [heq]⟩

/-- A read with a partition budget splits what is left at its cursor. -/
lemma readStrategyEventPage_splits (hpos : 0 < query.limit) (partitions : EventPartitions) {partitionsLeft : ℕ}
    (h : 0 < partitionsLeft) :
    ∃ page left, readStrategyEventPage section_ query boundary (some partitions) partitionsLeft
        = .ok (page, left) ∧ page.status = .recorded ∧ page.rows.length ≤ query.limit ∧
      PageSplits section_ query boundary partitions.rows page := by
  have hsorted := rows_ordered partitions.ordered
  refine scanPartitions_splits hpos partitions.parts partitions.ordered hsorted rfl (Nat.zero_le _)
    (fun _ => id) (fun _ h => absurd h List.not_mem_nil) ?_ (by omega)
  exact fun _ _ hselected => (Bool.and_eq_true_iff.mp hselected).1

end Scan

/-! ### The response -/

section Response

variable {Record : Type*} {fits : List Record → Bool} {records : List Record}

lemma fitPage_prefix {kept : List Record} (h : fitPage fits records = some kept) :
    ∃ n, kept = records.take n ∧ (records ≠ [] → 0 < n) := by
  have hmem := List.mem_of_find?_eq_some h
  obtain ⟨n, hn, rfl⟩ := List.mem_map.mp hmem
  rw [List.mem_reverse, List.mem_range'_1] at hn
  refine ⟨n, rfl, fun hne => ?_⟩
  rw [if_neg hne] at hn
  exact hn.1

lemma fitPage_isSome (h : fits (records.take 1) = true) : ∃ kept, fitPage fits records = some kept := by
  refine Option.isSome_iff_exists.mp (List.find?_isSome.mpr ⟨records.take 1, ?_, h⟩)
  refine List.mem_map.mpr ⟨if records = [] then 0 else 1, ?_, ?_⟩
  · rw [List.mem_reverse, List.mem_range'_1]
    split
    · omega
    · next hne =>
      have hpos := List.length_pos_iff.mpr hne
      omega
  · split
    · next hnil => simp [hnil]
    · rfl

end Response

/-- The rows of a section that are left at a cursor. -/
def leftAt (section_ : EventSection) (filters : EventFilters) (rows : List EventRow)
    (cursor : Option EventKey) : List EventRow :=
  rows.filter fun row => after eventOrder cursor row && eventMatches row section_ filters

/-- The response to a page that splits what is left splits it as well. -/
lemma strategyEventResponse_splits {section_ : EventSection} {query : StrategyEventQuery}
    {cursor : Option EventKey} {whole : List EventRow}
    (hsorted : whole.Pairwise fun a b => eventOrder a < eventOrder b)
    {fits : Page EventKey EventRow → Bool}
    (hfits : ∀ page, page.rows.length ≤ 1 → fits page = true) {read : StrategyEventPageRead}
    (hread : PageSplits section_ query cursor whole read) :
    ∃ page, strategyEventResponse fits read = .ok page ∧
      PageSplits section_ query cursor whole ⟨read.status, page.rows, page.next⟩ := by
  have hleft : ∃ tail, whole.filter (selected section_ query cursor) = read.rows ++ tail := by
    unfold PageSplits at hread
    split at hread
    · exact ⟨[], by rw [hread, List.append_nil]⟩
    · exact ⟨_, hread.1⟩
  obtain ⟨tail, hleft⟩ := hleft
  have hone : ∀ records : List EventRow, (records.take 1).length ≤ 1 := fun records => by
    rw [List.length_take]
    omega
  unfold strategyEventResponse
  have hfit : ∃ kept, fitPage (fun rows => fits
      ⟨rows, if rows.length < read.rows.length then rows.getLast?.map eventOrder
        else read.nextAfter⟩) read.rows = some kept := fitPage_isSome (hfits _ (hone read.rows))
  obtain ⟨kept, hkept⟩ := hfit
  simp only [hkept]
  refine ⟨_, rfl, ?_⟩
  obtain ⟨n, rfl, hpos⟩ := fitPage_prefix hkept
  by_cases hshort : (read.rows.take n).length < read.rows.length
  · simp only [if_pos hshort]
    have hn : n < read.rows.length := by
      rw [List.length_take] at hshort
      omega
    have hzero : 0 < n := hpos (List.ne_nil_of_length_pos (by omega))
    have hsplits : PageSplits section_ query cursor whole _ :=
      pageSplits_take hsorted read.status hzero
        (by rw [hleft, List.length_append]; omega)
    have hlast : (read.rows.take n).getLast? = read.rows[n - 1]? := by
      rw [List.getLast?_eq_getElem?, List.length_take, Nat.min_eq_left hn.le,
        List.getElem?_take_of_lt (by omega)]
    rw [hleft, List.take_append_of_le_length hn.le, List.getElem?_append_left (by omega)] at hsplits
    rw [hlast]
    exact hsplits
  · simp only [if_neg hshort]
    have hn : read.rows.take n = read.rows := by
      rw [List.length_take] at hshort
      exact List.take_of_length_le (by omega)
    rw [hn]
    exact hread

lemma eventPage_splits (section_ : EventSection) (filters : EventFilters)
    (limit : EventPageLimit) (partitions : EventPartitions) {partitionsLeft : ℕ} (hbudget : 0 < partitionsLeft)
    {fits : Page EventKey EventRow → Bool}
    (hfits : ∀ page, page.rows.length ≤ 1 → fits page = true) (cursor : Option EventKey) :
    ∃ page, eventPage section_ filters limit partitions partitionsLeft fits cursor = .ok page ∧
      Splits (leftAt section_ filters partitions.rows)
        (fun c => partitions.rows.countP (after eventOrder c)) (fun _ => True) cursor page := by
  have hread : ∃ page left, readStrategyEventPage section_ ⟨filters, limit.value⟩ cursor
      (some partitions) partitionsLeft = .ok (page, left) ∧ page.status = .recorded ∧
      page.rows.length ≤ limit.value ∧
      PageSplits section_ ⟨filters, limit.value⟩ cursor partitions.rows page :=
    readStrategyEventPage_splits limit.pos partitions hbudget
  obtain ⟨read, left, hread, -, -, hsplits⟩ := hread
  obtain ⟨page, hpage, hsplits⟩ :=
    strategyEventResponse_splits (rows_ordered partitions.ordered) hfits hsplits
  refine ⟨page, by simp only [eventPage, hread, hpage], ?_⟩
  obtain ⟨rows, next⟩ := page
  cases next with
  | none => exact hsplits
  | some k =>
    obtain ⟨hleft, hreaches, row, hrow, hbefore, hpast⟩ := hsplits
    exact ⟨hleft, countP_after_lt hreaches hrow hbefore hpast, trivial⟩

/-- For every verified partition list, every filter, every sequence of page limits and partition
budgets and every byte limit that a single row fits, following the cursors from the start ends and
returns exactly the matching rows, each once, in the order of the partitions. -/
theorem event_pages_lossless (section_ : EventSection) (filters : EventFilters)
    (partitions : EventPartitions) (limits : ℕ → EventPageLimit) (partitionsLeft : ℕ → ℕ)
    (hbudget : ∀ i, 0 < partitionsLeft i) (fits : ℕ → Page EventKey EventRow → Bool)
    (hfits : ∀ i page, page.rows.length ≤ 1 → fits i page = true) :
    (∀ fuel, partitions.rows.length < fuel →
      follow (fun i => eventPage section_ filters (limits i) partitions (partitionsLeft i) (fits i))
          fuel 0 none
        = .ok (some (partitions.rows.filter fun row => eventMatches row section_ filters))) ∧
      partitions.rows.Pairwise fun a b => eventOrder a < eventOrder b := by
  refine ⟨fun fuel hfuel => ?_, rows_ordered partitions.ordered⟩
  have hsize : partitions.rows.countP (after eventOrder none) < fuel :=
    lt_of_le_of_lt List.countP_le_length hfuel
  have hread : ∀ i c, True → ∃ page,
      eventPage section_ filters (limits i) partitions (partitionsLeft i) (fits i) c = .ok page ∧
        Splits (leftAt section_ filters partitions.rows)
          (fun c => partitions.rows.countP (after eventOrder c)) (fun _ => True) c page :=
    fun i c _ => eventPage_splits section_ filters (limits i) partitions (hbudget i) (hfits i) c
  rw [follow_lossless hread 0 trivial hsize]
  simp [leftAt]

/-- Two partitions of a section, the first one with the rows of two sessions. -/
def samplePartitions : EventPartitions where
  parts :=
    [{ rows := [⟨1, "order-a", [], fun _ => some "000001"⟩, ⟨2, "order-b", [], fun _ => none⟩]
       nonempty := by decide
       bounded := by decide
       ordered := by simp [eventOrder, Prod.Lex.toLex_lt_toLex] },
     { rows := [⟨3, "order-c", [], fun _ => some "000001"⟩]
       nonempty := by decide
       bounded := by decide
       ordered := List.pairwise_singleton _ _ }]
  ordered := by simp [EventPartition.last, EventPartition.first, eventOrder,
    Prod.Lex.toLex_lt_toLex]

theorem event_pages_lossless_sample :
    ∃ rows, follow (fun _ => eventPage .orders ⟨none, some 3, some "000001", []⟩ ⟨1, by decide,
        by decide⟩ samplePartitions 1 fun page => decide (page.rows.length ≤ 1)) 4 0 none
      = .ok (some rows) ∧ rows.map EventRow.eventId = ["order-a", "order-c"] := by
  have hpages := (event_pages_lossless .orders ⟨none, some 3, some "000001", []⟩ samplePartitions
    (fun _ => ⟨1, by decide, by decide⟩) (fun _ => 1) (fun _ => by decide)
    (fun _ page => decide (page.rows.length ≤ 1)) fun _ _ h => decide_eq_true h).1 4 (by decide)
  exact ⟨_, hpages, by decide⟩

end ThesisTrace.Evidence
