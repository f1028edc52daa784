import ThesisTrace.Evidence.HoldingPages

/-!
# Holding page pagination is lossless

What the publication builds describes its own partitions, so the checks of a page read pass. Every
page cuts the wanted rows at its cursor, whether the row limit or the partition bound ends it.
-/

namespace ThesisTrace.Evidence
open Pagination Transaction

/-! ### Published evidence -/

/-- The descriptors, from an index on, are those of the partitions. -/
def Describes : ℕ → List HoldingPart → List (List HoldingRow) → Prop
  | _, [], [] => True
  | index, part :: parts, rows :: payloads =>
    part.index = index ∧ part.rowCount = rows.length ∧
      rows.head?.map holdingKey = some part.first ∧
      rows.getLast?.map holdingKey = some part.last ∧ Describes (index + 1) parts payloads
  | _, _, _ => False

structure HoldingEvidence.Valid (evidence : HoldingEvidence) : Prop where
  sessions_sorted : evidence.sessions.Pairwise (· < ·)
  described : Describes 0 evidence.parts evidence.payloads
  sizes : ∀ rows ∈ evidence.payloads, 1 ≤ rows.length ∧ rows.length ≤ holdingPartitionRows
  rows_sorted : evidence.payloads.flatten.Pairwise fun a b => holdingKey a < holdingKey b
  covered : ∀ row ∈ evidence.payloads.flatten, row.session ∈ evidence.sessions

lemma validatedHoldingRows_ok {rows values : List HoldingRow} :
    validatedHoldingRows rows = .ok values ↔ values = rows ∧
      (1 ≤ rows.length ∧ rows.length ≤ holdingPartitionRows) ∧
      rows.Pairwise fun a b => holdingKey a < holdingKey b := by
  simp only [validatedHoldingRows, bind_ok_iff, require_ok_iff, pure_ok_iff]
  constructor
  · rintro ⟨_, hsize, _, hsorted, rfl⟩
    exact ⟨rfl, hsize, hsorted⟩
  · rintro ⟨rfl, hsize, hsorted⟩
    exact ⟨(), hsize, (), hsorted, rfl⟩

/-! ### The scan of a partition -/

section Scan

variable {evidence : HoldingEvidence} {filters : HoldingFilters} {limit : ℕ}
  {boundary : Option HoldingKey}

/-- The rows that a page at the boundary looks for. -/
abbrev wantedHolding (evidence : HoldingEvidence) (filters : HoldingFilters)
    (boundary : Option HoldingKey) : HoldingRow → Bool :=
  wanted holdingKey (rowMatches evidence filters) boundary

lemma reaches_key {row : HoldingRow} {k : HoldingKey} (hkey : holdingKey row = k)
    (hafter : after holdingKey boundary row = true) : Reaches holdingKey boundary (some k) := by
  cases boundary with
  | none => exact fun _ _ => rfl
  | some b =>
    rw [← hkey]
    exact reaches_of_le (of_decide_eq_true hafter).le

/-- The row loop stops with the first row beyond the limit. -/
lemma scanHoldingRows_eq (values : List HoldingRow) {rows : List HoldingRow}
    (h : rows.length ≤ limit) :
    scanHoldingRows evidence filters limit boundary values rows =
      (rows ++ values.filter (wantedHolding evidence filters boundary)).take (limit + 1) := by
  induction values generalizing rows with
  | nil =>
    rw [scanHoldingRows, List.filter_nil, List.append_nil, List.take_of_length_le (by omega)]
  | cons row values ih =>
    unfold scanHoldingRows
    by_cases hrow : wantedHolding evidence filters boundary row = true
    · rw [if_pos hrow, List.filter_cons_of_pos hrow]
      split
      · next hlimit =>
        have hlength : rows.length = limit := by
          rw [List.length_append, List.length_singleton] at hlimit
          omega
        rw [List.take_append, List.take_of_length_le (by omega), hlength,
          Nat.add_sub_cancel_left]
        rfl
      · next hlimit =>
        rw [ih (not_lt.mp hlimit), List.append_assoc, List.singleton_append]
    · rw [if_neg hrow, List.filter_cons_of_neg hrow, ih h]

/-- The bounds of a partition bound its rows. -/
lemma bounds_of_ends {rows : List HoldingRow} {first last : HoldingKey}
    (hsorted : rows.Pairwise fun a b => holdingKey a < holdingKey b)
    (hfirst : rows.head?.map holdingKey = some first)
    (hlast : rows.getLast?.map holdingKey = some last) {row : HoldingRow} (hrow : row ∈ rows) :
    first ≤ holdingKey row ∧ holdingKey row ≤ last := by
  have hkeys : (rows.map holdingKey).Pairwise (· < ·) := List.pairwise_map.mpr hsorted
  have hmem : holdingKey row ∈ rows.map holdingKey := List.mem_map_of_mem hrow
  rw [← List.head?_map] at hfirst
  rw [← List.getLast?_map] at hlast
  exact ⟨Slices.head_le hkeys hfirst hmem, Slices.le_getLast hkeys hlast hmem⟩

/-- No row of a skipped partition is wanted, unless the page is full. -/
lemma not_after_of_skipsPart (hvalid : evidence.Valid) {rows found : List HoldingRow}
    {part : HoldingPart} (hsorted : rows.Pairwise fun a b => holdingKey a < holdingKey b)
    (hfirst : rows.head?.map holdingKey = some part.first)
    (hlast : rows.getLast?.map holdingKey = some part.last)
    (hskip : skipsPart evidence filters limit boundary found part = true)
    (hroom : found.length ≤ limit) {row : HoldingRow} (hrow : row ∈ rows)
    (hmatches : rowMatches evidence filters row = true) :
    after holdingKey boundary row = false := by
  obtain ⟨hle, hge⟩ := bounds_of_ends hsorted hfirst hlast hrow
  have hselected : row.session ∈ selectedSessions evidence filters :=
    of_decide_eq_true (Bool.and_eq_true_iff.mp hmatches).1
  have hsessions : (selectedSessions evidence filters).Pairwise (· < ·) :=
    hvalid.sessions_sorted.filter _
  have hlow : HoldingKey.session part.first ≤ row.session := Prod.Lex.monotone_fst _ _ hle
  have hhigh : row.session ≤ HoldingKey.session part.last := Prod.Lex.monotone_fst _ _ hge
  unfold skipsPart at hskip
  split at hskip
  · next lowest highest hlowest hhighest =>
    have hlowest := Slices.head_le hsessions hlowest hselected
    have hhighest := Slices.le_getLast hsessions hhighest hselected
    simp only [Bool.or_eq_true, decide_eq_true_eq] at hskip
    rcases hskip with ((hbelow | habove) | hcursor) | hfull
    · exact absurd hbelow (not_lt.mpr (hlowest.trans hhigh))
    · exact absurd habove (not_lt.mpr (hlow.trans hhighest))
    · obtain ⟨b, rfl, hb⟩ := (Option.any_eq_true _ _).mp hcursor
      simpa using hge.trans (of_decide_eq_true hb)
    · omega
  · next hnone =>
    exfalso
    have hne : selectedSessions evidence filters ≠ [] := List.ne_nil_of_mem hselected
    exact hnone _ _ (List.head?_eq_some_head hne) (List.getLast?_eq_some_getLast hne)

lemma room_of_not_skipsPart {found : List HoldingRow} {part : HoldingPart}
    (h : ¬skipsPart evidence filters limit boundary found part = true) :
    found.length ≤ limit ∧ boundary.any (fun b => decide (part.last ≤ b)) = false := by
  unfold skipsPart at h
  split at h
  · simp only [Bool.or_eq_true, not_or, decide_eq_true_eq, not_lt] at h
    exact ⟨h.2, Bool.eq_false_of_not_eq_true h.1.2⟩
  · exact absurd rfl h

/-- What a scan has collected from the partitions `done` of the evidence: a full page, or all that
the partition bound leaves to this page, or all that is wanted so far. -/
def Collected (evidence : HoldingEvidence) (filters : HoldingFilters) (limit : ℕ)
    (boundary : Option HoldingKey) (whole done : List HoldingRow) (scan : HoldingScan) : Prop :=
  (limit < scan.rows.length ∧
    scan.rows = (whole.filter (wantedHolding evidence filters boundary)).take (limit + 1)) ∨
  (scan.rows.length ≤ limit ∧ scan.scanIncomplete = true ∧
    holdingPagePartitions ≤ scan.scannedParts ∧ ∃ k, scan.lastScanned = some k ∧
      Cuts holdingKey (rowMatches evidence filters) whole boundary ⟨scan.rows, some k⟩) ∨
  (scan.rows.length ≤ limit ∧ scan.scanIncomplete = false ∧
    scan.rows = done.filter (wantedHolding evidence filters boundary) ∧
    (scan.scannedParts = 0 ∨ ∃ k, scan.lastScanned = some k ∧
      (∀ row ∈ done, rowMatches evidence filters row = true →
        after holdingKey (some k) row = false) ∧
      ∃ row ∈ done, holdingKey row = k ∧ after holdingKey boundary row = true))

variable {whole done : List HoldingRow} {scan : HoldingScan}

/-- A page made of a finished scan cuts the wanted rows. -/
lemma Collected.cuts (h : Collected evidence filters limit boundary whole whole scan)
    (hpos : 0 < limit) (hsorted : whole.Pairwise fun a b => holdingKey a < holdingKey b) :
    Cuts holdingKey (rowMatches evidence filters) whole boundary (scan.page limit) := by
  rcases h with ⟨hfull, hrows⟩ | ⟨hroom, hincomplete, -, k, hk, hcuts⟩ |
    ⟨hroom, hcomplete, hrows, -⟩
  · have hlong : limit < (whole.filter (wantedHolding evidence filters boundary)).length := by
      rw [hrows, List.length_take] at hfull
      omega
    have hcuts : Cuts holdingKey (rowMatches evidence filters) whole boundary
        ⟨(whole.filter (wantedHolding evidence filters boundary)).take limit, _⟩ :=
      cuts_take hsorted hpos hlong.le
    unfold HoldingScan.page
    rw [if_pos hfull, hrows, List.take_take, Nat.min_eq_left (Nat.le_succ limit),
      List.getElem?_take_of_lt (by omega)]
    exact hcuts
  · unfold HoldingScan.page
    rw [if_neg (by omega), if_pos hincomplete, hk, List.take_of_length_le hroom]
    exact hcuts
  · unfold HoldingScan.page
    rw [if_neg (by omega), hcomplete, if_neg Bool.false_ne_true, List.take_of_length_le hroom,
      hrows]
    rfl

/-! ### The step of the loop -/

section Step

variable {rows rest : List HoldingRow} {part : HoldingPart} {previous : Option HoldingKey}

lemma Collected.skip (h : Collected evidence filters limit boundary whole done scan)
    (hnone : scan.rows.length ≤ limit → ∀ row ∈ rows, rowMatches evidence filters row = true →
      after holdingKey boundary row = false) :
    Collected evidence filters limit boundary whole (done ++ rows)
      { scan with previous := previous } := by
  rcases h with hfull | hbound | ⟨hroom, hcomplete, hrows, hscanned⟩
  · exact .inl hfull
  · exact .inr (.inl hbound)
  · have hempty : rows.filter (wantedHolding evidence filters boundary) = [] := by
      rw [List.filter_eq_nil_iff]
      intro row hrow hwanted
      obtain ⟨hafter, hmatches⟩ := Bool.and_eq_true_iff.mp hwanted
      rw [hnone hroom row hrow hmatches] at hafter
      exact Bool.false_ne_true hafter
    refine .inr (.inr ⟨hroom, hcomplete, ?_, hscanned.imp_right ?_⟩)
    · rw [List.filter_append, hempty, List.append_nil]
      exact hrows
    · rintro ⟨k, hk, hdone, row, hrow, hkey, hafter⟩
      refine ⟨k, hk, ?_, row, List.mem_append_left _ hrow, hkey, hafter⟩
      intro row' hrow' hmatches
      rcases List.mem_append.mp hrow' with hold | hnew
      · exact hdone row' hold hmatches
      · -- the cursor moved on, so what lay before it still does
        by_contra hnot
        have hreaches : Reaches holdingKey boundary (some k) := reaches_key hkey hafter
        have hbefore := hreaches row' (Bool.eq_true_of_not_eq_false hnot)
        rw [hnone hroom row' hnew hmatches] at hbefore
        exact Bool.false_ne_true hbefore

lemma Collected.bound
    (h : Collected evidence filters limit boundary (done ++ rows ++ rest) done scan)
    (hsorted : (done ++ rows ++ rest).Pairwise fun a b => holdingKey a < holdingKey b)
    (hroom : scan.rows.length ≤ limit) (hscanned : holdingPagePartitions ≤ scan.scannedParts) :
    Collected evidence filters limit boundary (done ++ rows ++ rest) (done ++ rows)
      { scan with previous := previous, scanIncomplete := true } := by
  rcases h with ⟨hfull, -⟩ | ⟨-, -, -, hcuts⟩ | ⟨-, -, hrows, hzero | hlast⟩
  · omega
  · exact .inr (.inl ⟨hroom, rfl, hscanned, hcuts⟩)
  · rw [hzero] at hscanned
    exact absurd hscanned (by decide)
  · obtain ⟨k, hk, hdone, row, hrow, rfl, hafter⟩ := hlast
    refine .inr (.inl ⟨hroom, rfl, hscanned, _, hk, ?_⟩)
    rw [List.append_assoc] at hsorted ⊢
    have hrest : ∀ row' ∈ rows ++ rest, after holdingKey (some (holdingKey row)) row' = true := by
      intro row' hrow'
      exact decide_eq_true ((List.pairwise_append.mp hsorted).2.2 row hrow row' hrow')
    have hcuts := cuts_append (reaches_key rfl hafter) hdone hrest
      ⟨row, hrow, hafter, decide_eq_false (lt_irrefl _)⟩
    rw [← hrows] at hcuts
    exact hcuts

lemma Collected.read
    (h : Collected evidence filters limit boundary (done ++ rows ++ rest) done scan)
    (hsorted : (done ++ rows ++ rest).Pairwise fun a b => holdingKey a < holdingKey b)
    (hlast : rows.getLast?.map holdingKey = some part.last)
    (hcursor : boundary.any (fun b => decide (part.last ≤ b)) = false)
    (hroom : scan.rows.length ≤ limit) (hscanned : scan.scannedParts < holdingPagePartitions) :
    Collected evidence filters limit boundary (done ++ rows ++ rest) (done ++ rows)
      { rows := scanHoldingRows evidence filters limit boundary rows scan.rows
        previous := previous
        scannedParts := scan.scannedParts + 1
        lastScanned := some part.last
        scanIncomplete := scan.scanIncomplete } := by
  rcases h with ⟨hfull, -⟩ | ⟨-, -, hbound, -⟩ | ⟨-, hcomplete, hrows, -⟩
  · omega
  · omega
  have hall : scanHoldingRows evidence filters limit boundary rows scan.rows =
      ((done ++ rows).filter (wantedHolding evidence filters boundary)).take (limit + 1) := by
    rw [scanHoldingRows_eq rows hroom, hrows, List.filter_append]
  rcases Nat.lt_or_ge limit
    ((done ++ rows).filter (wantedHolding evidence filters boundary)).length with hfull | hfits
  · -- the page is full, and nothing that follows changes its rows
    left
    dsimp only
    rw [hall]
    refine ⟨?_, ?_⟩
    · rw [List.length_take]
      omega
    · rw [List.filter_append (done ++ rows), List.take_append_of_le_length hfull]
  · rw [List.take_of_length_le (by omega)] at hall
    refine .inr (.inr ⟨?_, hcomplete, hall, .inr ⟨_, rfl, ?_, ?_⟩⟩)
    · dsimp only
      rw [hall]
      exact hfits
    · intro row hrow _
      have hend : ((done ++ rows).map holdingKey).getLast? = some part.last := by
        rw [List.getLast?_map, List.getLast?_append, Option.map_or, hlast]
        rfl
      have hkeys : ((done ++ rows).map holdingKey).Pairwise (· < ·) :=
        List.pairwise_map.mpr (List.pairwise_append.mp hsorted).1
      have hle := Slices.le_getLast hkeys hend (List.mem_map_of_mem hrow)
      exact decide_eq_false (not_lt.mpr hle)
    · obtain ⟨row, hrow, hkey⟩ := Option.map_eq_some_iff.mp hlast
      refine ⟨row, List.mem_append_right _ (List.mem_of_getLast? hrow), hkey, ?_⟩
      cases boundary with
      | none => rfl
      | some b =>
        rw [Option.any_some, decide_eq_false_iff_not, not_le, ← hkey] at hcursor
        exact decide_eq_true hcursor

/-- One round goes on from the partitions `done` to the one whose rows are `rows`. -/
lemma scanPart_collected (hvalid : evidence.Valid) {index : ℕ}
    (hsorted : (done ++ rows ++ rest).Pairwise fun a b => holdingKey a < holdingKey b)
    (hpayload : evidence.payloads[index]? = some rows) (hindex : part.index = index)
    (hcount : part.rowCount = rows.length)
    (hfirst : rows.head?.map holdingKey = some part.first)
    (hlast : rows.getLast?.map holdingKey = some part.last)
    (hprevious : scan.previous = done.getLast?.map holdingKey)
    (h : Collected evidence filters limit boundary (done ++ rows ++ rest) done scan) :
    ∃ next, scanPart evidence filters limit boundary scan (part, index) = .ok next ∧
      next.previous = (done ++ rows).getLast?.map holdingKey ∧
      Collected evidence filters limit boundary (done ++ rows ++ rest) (done ++ rows) next := by
  have hmem : rows ∈ evidence.payloads := List.mem_of_getElem? hpayload
  have hrows : rows.Pairwise fun a b => holdingKey a < holdingKey b :=
    (List.pairwise_append.mp (List.pairwise_append.mp hsorted).1).2.1
  have hsize := hvalid.sizes rows hmem
  have hvalues : validatedHoldingRows rows = .ok rows :=
    validatedHoldingRows_ok.mpr ⟨rfl, hsize, hrows⟩
  have hcovered : ∀ row ∈ rows, row.session ∈ evidence.sessions := fun row hrow =>
    hvalid.covered row (List.mem_flatten.mpr ⟨rows, hmem, hrow⟩)
  have hends : some part.last = (done ++ rows).getLast?.map holdingKey := by
    rw [List.getLast?_append, Option.map_or, hlast]
    rfl
  have hdescriptor : part.index = index ∧ 1 ≤ part.rowCount ∧
      part.rowCount ≤ holdingPartitionRows := by
    rw [hcount]
    exact ⟨hindex, hsize⟩
  have hordered : part.first ≤ part.last ∧ ∀ p ∈ scan.previous, p < part.first := by
    obtain ⟨row, hrow, hkey⟩ := Option.map_eq_some_iff.mp hfirst
    have hrow := List.mem_of_head? hrow
    refine ⟨hkey ▸ (bounds_of_ends hrows hfirst hlast hrow).2, ?_⟩
    intro p hp
    rw [hprevious] at hp
    obtain ⟨before, hbefore, rfl⟩ := Option.map_eq_some_iff.mp hp
    rw [← hkey]
    exact (List.pairwise_append.mp (List.pairwise_append.mp hsorted).1).2.2 before
      (List.mem_of_getLast? hbefore) row hrow
  have hchecks (scan' : Except HoldingError HoldingScan) :
      (require (part.index = index ∧ 1 ≤ part.rowCount ∧ part.rowCount ≤ holdingPartitionRows)
        HoldingError.partitionDescriptor >>= fun _ =>
      require (part.first ≤ part.last ∧ ∀ p ∈ scan.previous, p < part.first)
        HoldingError.partitionsOverlap >>= fun _ => scan') = scan' := by
    rw [require_ok_iff (u := ()).mpr hdescriptor, ok_bind, require_ok_iff (u := ()).mpr hordered,
      ok_bind]
  unfold scanPart
  rw [hchecks]
  split
  · next hskip =>
    refine ⟨_, rfl, hends, h.skip ?_⟩
    intro hroom row hrow hmatches
    exact not_after_of_skipsPart hvalid hrows hfirst hlast hskip hroom hrow hmatches
  next hskip =>
  obtain ⟨hroom, hcursor⟩ := room_of_not_skipsPart hskip
  split
  · next hscanned => exact ⟨_, rfl, hends, h.bound hsorted hroom hscanned⟩
  · next hscanned =>
    have hpart : evidence.payloads[part.index]? = some rows := hindex ▸ hpayload
    rw [hpart, found, ok_bind, hvalues, ok_bind,
      require_ok_iff (u := ()).mpr ⟨hcount.symm, hfirst, hlast, hcovered⟩, ok_bind]
    exact ⟨_, rfl, hends, h.read hsorted hlast hcursor hroom (not_le.mp hscanned)⟩

end Step

/-! ### A page -/

lemma scanParts_collected (hvalid : evidence.Valid) {parts : List HoldingPart}
    {before payloads : List (List HoldingRow)}
    (hdescribed : Describes before.length parts payloads)
    (hpayloads : evidence.payloads = before ++ payloads)
    (hprevious : scan.previous = before.flatten.getLast?.map holdingKey)
    (h : Collected evidence filters limit boundary evidence.payloads.flatten before.flatten scan) :
    ∃ last, (parts.zipIdx before.length).foldlM (scanPart evidence filters limit boundary) scan
        = .ok last ∧
      Collected evidence filters limit boundary evidence.payloads.flatten
        evidence.payloads.flatten last := by
  induction parts generalizing before payloads scan with
  | nil =>
    cases payloads with
    | nil =>
      rw [List.append_nil] at hpayloads
      refine ⟨scan, rfl, ?_⟩
      rw [hpayloads] at h ⊢
      exact h
    | cons rows payloads => exact hdescribed.elim
  | cons part parts ih =>
    cases payloads with
    | nil => exact hdescribed.elim
    | cons rows payloads =>
      obtain ⟨hindex, hcount, hfirst, hlast, hrest⟩ := hdescribed
      have hwhole : evidence.payloads.flatten = before.flatten ++ rows ++ payloads.flatten := by
        rw [hpayloads, List.flatten_append, List.flatten_cons, List.append_assoc]
      have hpayload : evidence.payloads[before.length]? = some rows := by
        rw [hpayloads, List.getElem?_append_right (le_refl _), Nat.sub_self]
        rfl
      have hsorted := hvalid.rows_sorted
      rw [hwhole] at hsorted h
      obtain ⟨next, hnext, hnextPrevious, hcollected⟩ := scanPart_collected hvalid hsorted hpayload
        hindex hcount hfirst hlast hprevious h
      rw [List.zipIdx_cons, List.foldlM_cons, hnext, ok_bind]
      have hlength : before.length + 1 = (before ++ [rows]).length := by simp
      have hflatten : (before ++ [rows]).flatten = before.flatten ++ rows := by simp
      rw [hlength] at hrest ⊢
      apply ih hrest
      · rw [hpayloads, List.append_assoc]
        rfl
      · rw [hflatten]
        exact hnextPrevious
      · rw [hflatten, hwhole]
        exact hcollected

lemma readHoldingPage_cuts (hvalid : evidence.Valid) (hne : evidence.sessions ≠ [])
    (hpos : 0 < limit) : ∃ page, readHoldingPage evidence filters limit boundary = .ok page ∧
      Cuts holdingKey (rowMatches evidence filters) evidence.payloads.flatten boundary
        ⟨page.rows, page.nextAfter⟩ := by
  have hstart : Collected evidence filters limit boundary evidence.payloads.flatten [] .start :=
    .inr (.inr ⟨Nat.zero_le _, rfl, rfl, .inl rfl⟩)
  have hscan : ∃ last, (evidence.parts.zipIdx 0).foldlM
      (scanPart evidence filters limit boundary) .start = .ok last ∧
      Collected evidence filters limit boundary evidence.payloads.flatten
        evidence.payloads.flatten last :=
    @scanParts_collected _ _ _ _ _ hvalid _ [] _ hvalid.described rfl rfl hstart
  obtain ⟨last, hlast, hcollected⟩ := hscan
  unfold readHoldingPage
  rw [require_ok_iff (u := ()).mpr ⟨hne, hvalid.sessions_sorted⟩, ok_bind, hlast, ok_bind]
  exact ⟨_, rfl, hcollected.cuts hpos hvalid.rows_sorted⟩

/-- Dates outside the coverage match no row. -/
lemma holdingPage_cuts (hvalid : evidence.Valid) (hne : evidence.sessions ≠ [])
    (pageLimit : HoldingPageLimit) :
    ∃ page, holdingPage evidence filters pageLimit boundary = .ok page ∧
      Cuts holdingKey (rowMatches evidence filters) evidence.payloads.flatten boundary page := by
  unfold holdingPage holdingQueryResponse
  split
  · next hdates =>
    have hnone : ∀ row ∈ evidence.payloads.flatten,
        ¬wantedHolding evidence filters boundary row = true := by
      intro row hrow hwanted
      have hselected := of_decide_eq_true
        (Bool.and_eq_true_iff.mp (Bool.and_eq_true_iff.mp hwanted).2).1
      obtain ⟨hsession, hcovers⟩ := List.mem_filter.mp hselected
      obtain ⟨hstart, hstop⟩ := Bool.and_eq_true_iff.mp hcovers
      rcases (Bool.or_eq_true _ _).mp hdates with hafter | hbefore
      · obtain ⟨start, hfilter, hlast⟩ := (Option.any_eq_true _ _).mp hafter
        obtain ⟨last, hend, hlt⟩ := (Option.any_eq_true _ _).mp hlast
        rw [hfilter, Option.all_some, decide_eq_true_eq] at hstart
        have hle := Slices.le_getLast hvalid.sessions_sorted hend hsession
        exact absurd (of_decide_eq_true hlt) (not_lt.mpr (hstart.trans hle))
      · obtain ⟨stop, hfilter, hfirst⟩ := (Option.any_eq_true _ _).mp hbefore
        obtain ⟨first, hhead, hlt⟩ := (Option.any_eq_true _ _).mp hfirst
        rw [hfilter, Option.all_some, decide_eq_true_eq] at hstop
        have hle := Slices.head_le hvalid.sessions_sorted hhead hsession
        exact absurd (of_decide_eq_true hlt) (not_lt.mpr (hle.trans hstop))
    exact ⟨⟨[], none⟩, rfl, List.filter_eq_nil_iff.mpr hnone⟩
  · obtain ⟨page, hpage, hcuts⟩ := readHoldingPage_cuts hvalid hne pageLimit.pos
    rw [hpage]
    exact ⟨_, rfl, hcuts⟩

end Scan

/-! ### What the publication builds -/

lemma holdingPartitions_flatten (rows : List HoldingRow) :
    (holdingPartitions rows).flatten = rows := by
  rw [holdingPartitions, ← List.flatMap_def]
  exact Slices.flatMap_slice (by decide) rows

/-- The validating loop accepts partitions that are ordered through and through. -/
lemma validatePartition_loop {partitions : List (List HoldingRow)}
    {previous last : Option HoldingKey}
    (h : partitions.foldlM validatePartition previous = .ok last) :
    (∀ rows ∈ partitions, 1 ≤ rows.length ∧ rows.length ≤ holdingPartitionRows) ∧
      (partitions.flatten.Pairwise fun a b => holdingKey a < holdingKey b) ∧
      ∀ p ∈ previous, ∀ row ∈ partitions.flatten, p < holdingKey row := by
  induction partitions generalizing previous with
  | nil => exact ⟨by simp, by simp, by simp⟩
  | cons rows partitions ih =>
    simp only [List.foldlM_cons, bind_ok_iff] at h
    obtain ⟨next, hnext, hrest⟩ := h
    simp only [validatePartition, bind_ok_iff, require_ok_iff, pure_ok_iff,
      validatedHoldingRows_ok] at hnext
    obtain ⟨rows, ⟨rfl, hsize, hsorted⟩, _, hfirst, rfl⟩ := hnext
    obtain ⟨hsizes, hpairwise, hlast⟩ := ih hrest
    have hne : rows ≠ [] := List.ne_nil_of_length_pos hsize.1
    have hhead := List.head?_eq_some_head hne
    have hend := List.getLast?_eq_some_getLast hne
    rw [hend] at hlast
    have hbounds {row : HoldingRow} (hrow : row ∈ rows) :=
      bounds_of_ends hsorted (by rw [hhead]; rfl) (by rw [hend]; rfl) hrow
    rw [List.flatten_cons]
    refine ⟨?_, List.pairwise_append.mpr ⟨hsorted, hpairwise, ?_⟩, ?_⟩
    · intro rows' hrows'
      rcases List.mem_cons.mp hrows' with rfl | hrows'
      · exact hsize
      · exact hsizes rows' hrows'
    · intro a ha b hb
      exact lt_of_le_of_lt (hbounds ha).2 (hlast _ rfl b hb)
    · intro p hp row hrow
      have hp := hfirst p hp _ hhead
      rcases List.mem_append.mp hrow with hrow | hrow
      · exact lt_of_lt_of_le hp (hbounds hrow).1
      · exact hp.trans (lt_of_le_of_lt (hbounds (List.head_mem hne)).2 (hlast _ rfl row hrow))

lemma describes_append {index : ℕ} {parts : List HoldingPart} {payloads : List (List HoldingRow)}
    {part : HoldingPart} {rows : List HoldingRow} (h : Describes index parts payloads)
    (hpart : Describes (index + parts.length) [part] [rows]) :
    Describes index (parts ++ [part]) (payloads ++ [rows]) := by
  induction parts generalizing index payloads with
  | nil =>
    cases payloads with
    | nil => exact hpart
    | cons _ _ => exact h.elim
  | cons head parts ih =>
    cases payloads with
    | nil => exact h.elim
    | cons _ payloads =>
      obtain ⟨hindex, hcount, hfirst, hlast, hrest⟩ := h
      refine ⟨hindex, hcount, hfirst, hlast, ih hrest ?_⟩
      rwa [List.length_cons, ← Nat.add_assoc, Nat.add_right_comm] at hpart

/-- The adding loop appends the partitions with their descriptors. -/
lemma addPartition_loop {partitions : List (List HoldingRow)} {evidence added : HoldingEvidence}
    (h : partitions.foldlM addPartition evidence = .ok added)
    (hdescribed : Describes 0 evidence.parts evidence.payloads) :
    added.sessions = evidence.sessions ∧ added.payloads = evidence.payloads ++ partitions ∧
      Describes 0 added.parts added.payloads := by
  induction partitions generalizing evidence with
  | nil =>
    cases h
    exact ⟨rfl, (List.append_nil _).symm, hdescribed⟩
  | cons rows partitions ih =>
    simp only [List.foldlM_cons, bind_ok_iff] at h
    obtain ⟨next, hnext, hrest⟩ := h
    simp only [addPartition, bind_ok_iff, found_ok_iff, pure_ok_iff,
      validatedHoldingRows_ok] at hnext
    obtain ⟨_, ⟨rfl, -, -⟩, first, hfirst, last, hlast, rfl⟩ := hnext
    obtain ⟨hsessions, hpayloads, hadded⟩ := ih hrest (describes_append hdescribed
      ⟨(Nat.zero_add _).symm, rfl, by rw [hfirst]; rfl, by rw [hlast]; rfl, trivial⟩)
    refine ⟨hsessions, ?_, hadded⟩
    rw [hpayloads, List.append_assoc]
    rfl

/-- A segment adds its rows to valid evidence. -/
lemma addSegment_valid {evidence added : HoldingEvidence} {sessions : List Session}
    {rows : List HoldingRow} (hvalid : evidence.Valid)
    (h : addSegment evidence sessions rows = .ok added) :
    added.Valid ∧ added.payloads.flatten = evidence.payloads.flatten ++ rows := by
  simp only [addSegment, bind_ok_iff, require_ok_iff, pure_ok_iff] at h
  obtain ⟨_, ⟨-, hsessions⟩, _, hlater, _, hcovered, _, hvalidated, built, hbuilt, rfl⟩ := h
  obtain ⟨hsizes, hsorted, -⟩ := validatePartition_loop hvalidated
  obtain ⟨hsame, hpayloads, hdescribed⟩ := addPartition_loop hbuilt hvalid.described
  rw [holdingPartitions_flatten] at hsorted
  have hflatten : built.payloads.flatten = evidence.payloads.flatten ++ rows := by
    rw [hpayloads, List.flatten_append, holdingPartitions_flatten]
  have hbetween : ∀ a ∈ evidence.sessions, ∀ b ∈ sessions, a < b := by
    intro a ha b hb
    have hlast := List.getLast?_eq_some_getLast (List.ne_nil_of_mem ha)
    have hfirst := List.head?_eq_some_head (List.ne_nil_of_mem hb)
    exact lt_of_le_of_lt (Slices.le_getLast hvalid.sessions_sorted hlast ha)
      (lt_of_lt_of_le (hlater _ hlast _ hfirst) (Slices.head_le hsessions hfirst hb))
  refine ⟨⟨?_, hdescribed, ?_, ?_, ?_⟩, hflatten⟩
  · dsimp only
    rw [hsame]
    exact List.pairwise_append.mpr ⟨hvalid.sessions_sorted, hsessions, hbetween⟩
  · intro payload hpayload
    rw [hpayloads] at hpayload
    rcases List.mem_append.mp hpayload with hold | hnew
    · exact hvalid.sizes payload hold
    · exact hsizes payload hnew
  · dsimp only
    rw [hflatten]
    refine List.pairwise_append.mpr ⟨hvalid.rows_sorted, hsorted, ?_⟩
    intro a ha b hb
    exact Prod.Lex.toLex_lt_toLex.mpr
      (.inl (hbetween _ (hvalid.covered a ha) _ (hcovered b hb)))
  · intro row hrow
    dsimp only at hrow ⊢
    rw [hflatten] at hrow
    rw [hsame]
    rcases List.mem_append.mp hrow with hold | hnew
    · exact List.mem_append_left _ (hvalid.covered row hold)
    · exact List.mem_append_right _ (hcovered row hnew)

lemma publishHoldings_valid {segments : List (List Session × List HoldingRow)}
    {evidence : HoldingEvidence} (h : publishHoldings segments = .ok evidence) :
    evidence.Valid ∧ evidence.sessions ≠ [] ∧
      evidence.payloads.flatten = segments.flatMap Prod.snd := by
  have hloop {segments : List (List Session × List HoldingRow)} {start built : HoldingEvidence}
      (hvalid : start.Valid) (hbuilt : segments.foldlM
        (fun evidence segment => addSegment evidence segment.1 segment.2) start = .ok built) :
      built.Valid ∧ built.payloads.flatten =
        start.payloads.flatten ++ segments.flatMap Prod.snd := by
    induction segments generalizing start with
    | nil =>
      cases hbuilt
      exact ⟨hvalid, (List.append_nil _).symm⟩
    | cons segment segments ih =>
      simp only [List.foldlM_cons, bind_ok_iff] at hbuilt
      obtain ⟨next, hnext, hrest⟩ := hbuilt
      obtain ⟨hnextValid, hrows⟩ := addSegment_valid hvalid hnext
      obtain ⟨hbuiltValid, hbuiltRows⟩ := ih hnextValid hrest
      refine ⟨hbuiltValid, ?_⟩
      rw [hbuiltRows, hrows, List.append_assoc]
      rfl
  simp only [publishHoldings, finish, bind_ok_iff, require_ok_iff, pure_ok_iff] at h
  obtain ⟨built, hbuilt, _, hne, rfl⟩ := h
  have hempty : HoldingEvidence.empty.Valid :=
    ⟨List.Pairwise.nil, trivial, by simp [HoldingEvidence.empty], List.Pairwise.nil,
      by simp [HoldingEvidence.empty]⟩
  obtain ⟨hvalid, hrows⟩ := hloop hempty hbuilt
  exact ⟨hvalid, hne, hrows⟩

/-! ### Following the cursors -/

/-- A row that the filters of a query match. -/
def holdingMatches (filters : HoldingFilters) (row : HoldingRow) : Bool :=
  filters.covers row.session &&
  filters.instrumentId.all fun instrument => decide (row.instrumentId = instrument)

lemma rowMatches_eq {evidence : HoldingEvidence} (filters : HoldingFilters) {row : HoldingRow}
    (hsession : row.session ∈ evidence.sessions) :
    rowMatches evidence filters row = holdingMatches filters row := by
  unfold rowMatches holdingMatches selectedSessions
  congr 1
  rw [Bool.eq_iff_iff, decide_eq_true_eq, List.mem_filter]
  exact and_iff_right hsession

/-- For everything that is published, every filter and every sequence of limits, following the
cursors from the start ends and returns exactly the rows that match, each once, in order. -/
theorem holding_pages_lossless (segments : List (List Session × List HoldingRow))
    (evidence : HoldingEvidence) (hpublished : publishHoldings segments = .ok evidence)
    (filters : HoldingFilters) (limits : ℕ → HoldingPageLimit) :
    (∀ fuel, (segments.flatMap Prod.snd).length < fuel →
      follow (fun i => holdingPage evidence filters (limits i)) fuel 0 none =
        .ok (some ((segments.flatMap Prod.snd).filter (holdingMatches filters)))) ∧
      (segments.flatMap Prod.snd).Pairwise fun a b => holdingKey a < holdingKey b := by
  obtain ⟨hvalid, hne, hrows⟩ := publishHoldings_valid hpublished
  rw [← hrows]
  refine ⟨?_, hvalid.rows_sorted⟩
  intro fuel hfuel
  have hsize : evidence.payloads.flatten.countP (after holdingKey none) < fuel :=
    lt_of_le_of_lt List.countP_le_length hfuel
  have hread (i : ℕ) (c : Option HoldingKey) (_ : True) :
      ∃ page, holdingPage evidence filters (limits i) c = .ok page ∧
        Splits (fun c => evidence.payloads.flatten.filter (wantedHolding evidence filters c))
          (fun c => evidence.payloads.flatten.countP (after holdingKey c)) (fun _ => True) c
          page := by
    obtain ⟨page, hpage, hcuts⟩ := @holdingPage_cuts _ filters c hvalid hne (limits i)
    exact ⟨page, hpage, hcuts.splits⟩
  rw [follow_lossless hread 0 trivial hsize]
  congr 2
  apply List.filter_congr
  intro row hrow
  exact rowMatches_eq filters (hvalid.covered row hrow)

/-- Two segments; the second session has no holding. -/
def sampleHoldings : List (List Session × List HoldingRow) :=
  [([1, 2], [⟨1, "000001", 100, "100", "2", "200", 1 / 2⟩,
      ⟨1, "000002", 50, "50", "4", "200", 1 / 2⟩]),
    ([3], [⟨3, "000001", 100, "100", "3", "300", 1⟩])]

theorem holding_pages_lossless_sample :
    ∃ evidence rows, publishHoldings sampleHoldings = .ok evidence ∧
      follow (fun _ => holdingPage evidence ⟨none, some 3, some "000001"⟩ ⟨1, by decide, by decide⟩)
        4 0 none = .ok (some rows) ∧ rows.map HoldingRow.session = [1, 3] := by
  have hpublished : (publishHoldings sampleHoldings).isOk = true := by decide
  cases hevidence : publishHoldings sampleHoldings with
  | error error =>
    rw [hevidence] at hpublished
    cases hpublished
  | ok evidence =>
    have hpages := (holding_pages_lossless sampleHoldings evidence hevidence
      ⟨none, some 3, some "000001"⟩ fun _ => ⟨1, by decide, by decide⟩).1 4 (by decide)
    exact ⟨evidence, _, rfl, hpages, by decide⟩

end ThesisTrace.Evidence
