import Mathlib.Data.List.Induction
import ThesisTrace.ResearchRun.ResultSections

/-!
# Result pages lose no row

A partition that a page does not open has no row that the page could need, and a page that does not
open all the others has collected more rows than its limit.
-/

namespace ThesisTrace.ResearchRun.Results
open Pagination Transaction

/-! ### Partitions and their rows -/

section Bounded

variable {K R : Type} [LinearOrder K] {key : R → K} {bound : R → K}

/-- The rows of a partition agree with its descriptor. -/
structure Describes (bound : R → K) (part : PartitionDescriptor K) (rows : List R) : Prop where
  rowCount : part.rowCount = rows.length
  first : ∃ row ∈ rows, bound row = part.first
  last : ∃ row ∈ rows, bound row = part.last
  first_le : ∀ row ∈ rows, part.first ≤ bound row
  le_last : ∀ row ∈ rows, bound row ≤ part.last

lemma first_le_of_pairwise {rows : List R} {first : K}
    (hsorted : rows.Pairwise fun a b => bound a ≤ bound b)
    (hfirst : rows.head?.map bound = some first) : ∀ row ∈ rows, first ≤ bound row := by
  cases rows with
  | nil => nofun
  | cons head rows =>
    cases hfirst
    intro row hrow
    rcases List.mem_cons.mp hrow with rfl | hmem
    · exact le_rfl
    · exact (List.pairwise_cons.mp hsorted).1 row hmem

lemma le_last_of_pairwise {rows : List R} {last : K}
    (hsorted : rows.Pairwise fun a b => bound a ≤ bound b)
    (hlast : rows.getLast?.map bound = some last) : ∀ row ∈ rows, bound row ≤ last := by
  induction rows using List.reverseRecOn with
  | nil => nofun
  | append_singleton rows tail _ =>
    rw [List.getLast?_concat, Option.map_some, Option.some.injEq] at hlast
    subst hlast
    intro row hrow
    rcases List.mem_append.mp hrow with hmem | hmem
    · exact (List.pairwise_append.mp hsorted).2.2 row hmem tail (List.mem_singleton.mpr rfl)
    · rw [List.mem_singleton.mp hmem]

/-- A partition that is read agrees with its descriptor. -/
lemma readPartition_describes {decode : List R → Except ResultError (List R)}
    {payload : ℕ → Option (List R)} {part : PartitionDescriptor K} {rows : List R}
    (hdecode : ∀ content rows, decode content = .ok rows →
      rows.Pairwise fun a b => bound a ≤ bound b)
    (h : readPartition decode bound payload part = .ok rows) : Describes bound part rows := by
  simp only [readPartition, bind_ok_iff, found_ok_iff, require_ok_iff, pure_ok_iff] at h
  obtain ⟨content, -, rows, hrows, _, ⟨-, hcount, hfirst, hlast⟩, rfl⟩ := h
  have hsorted := hdecode content rows hrows
  refine ⟨hcount, ?_, ?_, first_le_of_pairwise hsorted hfirst, le_last_of_pairwise hsorted hlast⟩
  · obtain ⟨row, hrow, hbound⟩ := Option.map_eq_some_iff.mp hfirst
    exact ⟨row, List.mem_of_head? hrow, hbound⟩
  · obtain ⟨row, hrow, hbound⟩ := Option.map_eq_some_iff.mp hlast
    exact ⟨row, List.mem_of_getLast? hrow, hbound⟩

lemma canonicalRows_pairwise {content rows : List R} (h : canonicalRows key content = .ok rows) :
    rows.Pairwise fun a b => key a < key b := by
  simp only [canonicalRows, bind_ok_iff, require_ok_iff, pure_ok_iff] at h
  obtain ⟨_, hnodup, rfl⟩ := h
  have hperm := List.perm_insertionSort (fun a b => key a ≤ key b) content
  have hkeys : ((content.insertionSort fun a b => key a ≤ key b).map key).Nodup :=
    (hperm.map key).nodup_iff.mpr hnodup
  have hsorted := List.pairwise_insertionSort (fun a b => key a ≤ key b) content
  refine (hsorted.imp₂ (fun a b hle hne => ?_) (List.pairwise_map.mp hkeys))
  exact lt_of_le_of_ne hle hne

/-- The checks leave partitions with numbers of their own whose bounds are in order. -/
lemma checkPartitions_ok {size : Option ℕ} {parts : List (PartitionDescriptor K)} {index : ℕ}
    {prior : Option K} (h : checkPartitions size index prior parts = .ok ()) :
    (∀ part ∈ parts, index ≤ part.name ∧ prior.all (· < part.first)) ∧
      (parts.map PartitionDescriptor.name).Nodup ∧
      parts.Pairwise fun a b => a.last < b.first := by
  induction parts generalizing index prior with
  | nil => simp
  | cons part parts ih =>
    simp only [checkPartitions, bind_ok_iff, require_ok_iff] at h
    obtain ⟨_, ⟨hname, -, -, hle, hprior⟩, hrest⟩ := h
    obtain ⟨hbounds, hnodup, hordered⟩ := ih hrest
    refine ⟨?_, ?_, ?_⟩
    · intro other hother
      rcases List.mem_cons.mp hother with rfl | hmem
      · exact ⟨hname.ge, hprior⟩
      · obtain ⟨hindex, hfirst⟩ := hbounds other hmem
        have hlt : part.last < other.first := by simpa using hfirst
        refine ⟨by omega, ?_⟩
        cases prior with
        | none => rfl
        | some last =>
          have hlast : last < part.first := by simpa using hprior
          simpa using hlast.trans (hle.trans_lt hlt)
    · refine List.nodup_cons.mpr ⟨fun hmem => ?_, hnodup⟩
      obtain ⟨other, hother, hsame⟩ := List.mem_map.mp hmem
      have hindex := (hbounds other hother).1
      omega
    · refine List.pairwise_cons.mpr ⟨fun other hother => ?_, hordered⟩
      simpa using (hbounds other hother).2

/-- Rows of partitions in order are in order, if those of every partition are. -/
lemma flatten_pairwise {parts : List (PartitionDescriptor K)} {contents : List (List R)}
    (hreads : List.Forall₂ (Describes bound) parts contents)
    (hordered : parts.Pairwise fun a b => a.last < b.first) {lt : R → R → Prop}
    (hlt : ∀ a b, bound a < bound b → lt a b) (hrows : ∀ rows ∈ contents, rows.Pairwise lt) :
    contents.flatten.Pairwise lt := by
  induction hreads with
  | nil => exact List.Pairwise.nil
  | @cons part rows parts contents hpart hparts ih =>
    obtain ⟨hfirst, hordered⟩ := List.pairwise_cons.mp hordered
    obtain ⟨hhead, hrows⟩ := List.forall_mem_cons.mp hrows
    rw [List.flatten_cons]
    refine List.pairwise_append.mpr ⟨hhead, ih hordered hrows, fun a ha b hb => ?_⟩
    obtain ⟨other, hother, hb⟩ := List.mem_flatten.mp hb
    obtain ⟨i, hi, rfl⟩ := List.getElem_of_mem hother
    have hlength := hparts.length_eq
    have hdescribes := (List.forall₂_iff_get.mp hparts).2 i (by omega) hi
    have hpart' : parts.get ⟨i, by omega⟩ ∈ parts := List.get_mem _ _
    exact hlt a b (((hpart.le_last a ha).trans_lt (hfirst _ hpart')).trans_le
      (hdescribes.first_le b hb))

/-! ### Bounded pages -/

lemma mem_planPartitions {after : Option K} {limit available name : ℕ}
    {parts : List (PartitionDescriptor K)}
    (h : name ∈ planPartitions after limit available parts) :
    name ∈ parts.map PartitionDescriptor.name := by
  induction parts generalizing available with
  | nil => exact h
  | cons part parts ih =>
    unfold planPartitions at h
    rw [List.map_cons]
    split at h
    · exact List.mem_cons_of_mem _ (ih h)
    dsimp only at h
    generalize (if after.all (· < part.first) = true then available + part.rowCount
      else available) = available' at h
    split at h
    · exact List.mem_cons.mpr (.inl (List.mem_singleton.mp h))
    · rcases List.mem_cons.mp h with rfl | hmem
      · exact List.mem_cons_self
      · exact List.mem_cons_of_mem _ (ih hmem)

lemma readSelected_congr {payload : ℕ → Option (List R)} {names names' : List ℕ}
    {parts : List (PartitionDescriptor K)}
    (h : ∀ part ∈ parts, part.name ∈ names ↔ part.name ∈ names') :
    readSelected key payload names parts = readSelected key payload names' parts := by
  induction parts with
  | nil => rfl
  | cons part parts ih =>
    obtain ⟨hpart, hparts⟩ := List.forall_mem_cons.mp h
    unfold readSelected
    rw [ih hparts]
    by_cases hname : part.name ∈ names
    · rw [if_pos hname, if_pos (hpart.mp hname)]
    · rw [if_neg hname, if_neg fun h => hname (hpart.mpr h)]

lemma readSelected_nil (key : R → K) (payload : ℕ → Option (List R))
    (parts : List (PartitionDescriptor K)) : readSelected key payload [] parts = .ok [] := by
  induction parts with
  | nil => rfl
  | cons part parts ih =>
    unfold readSelected
    rw [if_neg List.not_mem_nil, ih]

/-- The partition is read as the rows. -/
def Reads (key : R → K) (payload : ℕ → Option (List R)) (part : PartitionDescriptor K)
    (rows : List R) : Prop :=
  readPartition (canonicalRows key) key payload part = .ok rows

lemma Reads.describes {payload : ℕ → Option (List R)} {part : PartitionDescriptor K}
    {rows : List R} (h : Reads key payload part rows) : Describes key part rows := by
  have hdecode : ∀ content rows, canonicalRows key content = .ok rows →
      rows.Pairwise fun a b => key a ≤ key b :=
    fun _ _ hrows => (canonicalRows_pairwise hrows).imp fun hlt => le_of_lt hlt
  exact readPartition_describes hdecode h

lemma Reads.pairwise {payload : ℕ → Option (List R)} {part : PartitionDescriptor K}
    {rows : List R} (h : Reads key payload part rows) :
    rows.Pairwise fun a b => key a < key b := by
  simp only [Reads, readPartition, bind_ok_iff, found_ok_iff, require_ok_iff, pure_ok_iff] at h
  obtain ⟨content, -, rows, hrows, _, -, rfl⟩ := h
  exact canonicalRows_pairwise hrows

/-- What the planned partitions hold after the cursor is all that is left there, or more than the
limit. -/
lemma readSelected_plan {payload : ℕ → Option (List R)} (after : Option K) (limit : ℕ)
    {parts : List (PartitionDescriptor K)} {contents : List (List R)}
    (hreads : List.Forall₂ (Reads key payload) parts contents)
    (hnames : (parts.map PartitionDescriptor.name).Nodup) (available : ℕ) :
    ∃ kept tail, readSelected key payload (planPartitions after limit available parts) parts =
        .ok kept ∧
      contents.flatten.filter (Pagination.after key after) =
        kept.filter (Pagination.after key after) ++ tail ∧
      (tail = [] ∨ limit < available + (kept.filter (Pagination.after key after)).length) := by
  induction hreads generalizing available with
  | nil => exact ⟨[], [], rfl, rfl, .inl rfl⟩
  | @cons part rows parts contents hpart hparts ih =>
    obtain ⟨hname, hnames⟩ := List.nodup_cons.mp hnames
    have hdescribes := hpart.describes
    have hplan (available : ℕ) : part.name ∉ planPartitions after limit available parts :=
      fun h => hname (mem_planPartitions h)
    rw [List.flatten_cons, List.filter_append]
    unfold planPartitions readSelected
    split
    · next hskip =>
      -- every row of the partition lies at or before the cursor
      obtain ⟨boundary, rfl, hlast⟩ := (Option.any_eq_true _ _).mp hskip
      have hnone : rows.filter (Pagination.after key (some boundary)) = [] := by
        refine List.filter_eq_nil_iff.mpr fun row hrow hafter => ?_
        exact absurd (of_decide_eq_true hafter)
          (not_lt.mpr ((hdescribes.le_last row hrow).trans (of_decide_eq_true hlast)))
      rw [if_neg (hplan available), hnone, List.nil_append]
      exact ih hnames available
    next hskip =>
    dsimp only
    generalize havailable : (if after.all (· < part.first) = true then available + part.rowCount
      else available) = available'
    have hcounted : available' ≤ available + (rows.filter (Pagination.after key after)).length := by
      by_cases hall : after.all (· < part.first) = true
      · have hfilter : rows.filter (Pagination.after key after) = rows := by
          refine List.filter_eq_self.mpr fun row hrow => ?_
          cases after with
          | none => rfl
          | some boundary =>
            have hlt : boundary < part.first := by simpa using hall
            exact decide_eq_true (hlt.trans_le (hdescribes.first_le row hrow))
        rw [if_pos hall] at havailable
        rw [hfilter, ← havailable, hdescribes.rowCount]
      · rw [if_neg hall] at havailable
        omega
    have hread : readPartition (canonicalRows key) key payload part = .ok rows := hpart
    split
    · next henough =>
      have hnone : readSelected key payload [part.name] parts = .ok [] := by
        rw [← readSelected_nil key payload parts]
        refine readSelected_congr fun other hother => ?_
        simp only [List.mem_singleton, List.not_mem_nil, iff_false]
        exact fun hsame => hname (hsame ▸ List.mem_map_of_mem hother)
      refine ⟨rows, contents.flatten.filter (Pagination.after key after), ?_, rfl,
        .inr (by omega)⟩
      rw [if_pos (List.mem_singleton.mpr rfl), hread, hnone]
      simp
    · next hmore =>
      obtain ⟨kept, tail, hkept, hrest, htail⟩ := ih hnames available'
      refine ⟨rows ++ kept, tail, ?_, ?_, ?_⟩
      · have hcongr : readSelected key payload
            (part.name :: planPartitions after limit available' parts) parts = .ok kept := by
          rw [← hkept]
          refine readSelected_congr fun other hother => ?_
          rw [List.mem_cons]
          exact or_iff_right fun hsame => hname (hsame ▸ List.mem_map_of_mem hother)
        rw [if_pos List.mem_cons_self, hread, hcongr]
        rfl
      · rw [List.filter_append, hrest, List.append_assoc]
      · refine htail.imp_right fun hlt => ?_
        rw [List.filter_append, List.length_append]
        omega

lemma exists_contents {payload : ℕ → Option (List R)} {names : List ℕ}
    {parts : List (PartitionDescriptor K)} {rows : List R}
    (hnames : ∀ part ∈ parts, part.name ∈ names)
    (h : readSelected key payload names parts = .ok rows) :
    ∃ contents, List.Forall₂ (Reads key payload) parts contents ∧ rows = contents.flatten := by
  induction parts generalizing rows with
  | nil =>
    cases h
    exact ⟨[], .nil, rfl⟩
  | cons part parts ih =>
    obtain ⟨hname, hnames⟩ := List.forall_mem_cons.mp hnames
    unfold readSelected at h
    rw [if_pos hname] at h
    simp only [bind_ok_iff, pure_ok_iff] at h
    obtain ⟨first, hfirst, rest, hrest, rfl⟩ := h
    obtain ⟨contents, hcontents, rfl⟩ := ih hnames hrest
    exact ⟨first :: contents, .cons hfirst hcontents, rfl⟩

/-- A page of a verified section splits what its cursor leaves. -/
lemma readBoundedPage_splits {size : Option ℕ} {stored : PartitionedSection K R} {rows : List R}
    (hrows : readBoundedRows key size stored = .ok rows) (after : Option K) {limit : ℕ}
    (hlimit : 1 ≤ limit) :
    (rows.Pairwise fun a b => key a < key b) ∧
    ∃ page, readBoundedPage key size stored after limit = .ok page ∧
      Splits (fun c => rows.filter (Pagination.after key c))
        (fun c => (rows.filter (Pagination.after key c)).length) (fun _ => True) after page := by
  simp only [readBoundedRows, bind_ok_iff] at hrows
  obtain ⟨_, hcheck, hread⟩ := hrows
  obtain ⟨contents, hcontents, rfl⟩ := exists_contents (fun _ => List.mem_map_of_mem) hread
  obtain ⟨-, hnames, hordered⟩ := checkPartitions_ok hcheck
  have hpairwise : contents.flatten.Pairwise fun a b => key a < key b := by
    refine flatten_pairwise (hcontents.imp fun _ _ h => h.describes) hordered (fun _ _ h => h) ?_
    exact forall_of_forall₂ hcontents fun _ _ h => h.pairwise
  obtain ⟨kept, tail, hkept, hleft, htail⟩ := readSelected_plan after limit hcontents hnames 0
  rw [Nat.zero_add] at htail
  refine ⟨hpairwise, pageOf key (kept.filter (Pagination.after key after)) limit, ?_, ?_⟩
  · unfold readBoundedPage planBoundedResultPartitionNames
    rw [hcheck]
    simp only [ok_bind, hkept]
    rfl
  · refine Collects.splits ⟨tail, hleft, htail⟩ hlimit fun n row hrow => ⟨?_, trivial⟩
    simp only [← wanted_true] at hrow ⊢
    exact filter_wanted_getElem hpairwise hrow

end Bounded

/-! ### Strategy sections -/

section Strategy

variable {D : Type}

lemma strategyObservations_splits {stored : PartitionedSection String (Observation D)}
    {rows : List (Observation D)} (hrows : readDailyObservations stored = .ok rows)
    (after : Option String) {limit : ℕ} (hlimit : 1 ≤ limit) :
    (rows.Pairwise fun a b => a.key < b.key) ∧
    ∃ page, readStrategyObservations stored after limit = .ok page ∧
      Splits (fun c => rows.filter (Pagination.after Observation.key c))
        (fun c => (rows.filter (Pagination.after Observation.key c)).length) (fun _ => True) after
        page := by
  simp only [readDailyObservations, bind_ok_iff, require_ok_iff] at hrows
  obtain ⟨_, hparts, hrows⟩ := hrows
  obtain ⟨hpairwise, page, hpage, hsplits⟩ := readBoundedPage_splits hrows after hlimit
  refine ⟨hpairwise, page, ?_, hsplits⟩
  unfold readStrategyObservations
  rw [(require_ok_iff (u := ())).mpr hparts, ok_bind, hpage]

end Strategy

/-! ### Common inputs -/

section Common

variable {D : Type}

/-- A Session is four digits, two digits and two digits, with a year and a month. -/
lemma session_parts (session : Session) : ∃ y₁ y₂ y₃ y₄ m₁ m₂ d₁ d₂,
    session.text.toList = [y₁, y₂, y₃, y₄, '-', m₁, m₂, '-', d₁, d₂] ∧
    [y₁, y₂, y₃, y₄, m₁, m₂, d₁, d₂].all Char.isDigit = true ∧
    1 ≤ Nat.ofDigitChars 10 [y₁, y₂, y₃, y₄] 0 ∧ 1 ≤ Nat.ofDigitChars 10 [m₁, m₂] 0 ∧
    Nat.ofDigitChars 10 [m₁, m₂] 0 ≤ 12 := by
  have hiso := session.iso
  unfold isSession at hiso
  split at hiso
  · next y₁ y₂ y₃ y₄ m₁ m₂ d₁ d₂ htext =>
    simp only [Bool.and_eq_true, decide_eq_true_eq] at hiso
    obtain ⟨⟨⟨⟨⟨hdigits, hyear⟩, hmonth⟩, hle⟩, -⟩, -⟩ := hiso
    exact ⟨y₁, y₂, y₃, y₄, m₁, m₂, d₁, d₂, htext, hdigits, hyear, hmonth, hle⟩
  · cases hiso

lemma bar_notMem_session (session : Session) : '|' ∉ session.text.toList := by
  obtain ⟨y₁, y₂, y₃, y₄, m₁, m₂, d₁, d₂, htext, hdigits, -⟩ := session_parts session
  have hparts : ∀ c ∈ session.text.toList, c.isDigit = true ∨ c = '-' := by
    rw [htext]
    simp only [List.all_cons, List.all_nil, Bool.and_true, Bool.and_eq_true] at hdigits
    simp [hdigits]
  intro hmem
  exact absurd (hparts _ hmem) (by decide)

lemma bar_notMem_identifier (identifier : CommonIdentifier) :
    '|' ∉ identifier.text.toList := by
  cases identifier <;> decide

lemma bar_notMem_industry (code : Option IndustryCode) :
    '|' ∉ ((code.map IndustryCode.text).getD "").toList := by
  cases code with
  | none => decide
  | some code =>
    intro hmem
    have hdigit := List.all_eq_true.mp code.digits _ hmem
    exact absurd hdigit (by decide)

lemma session_ne_empty (session : Session) : session.text ≠ "" := by
  intro h
  have hiso := session.iso
  rw [h] at hiso
  exact absurd hiso (by decide)

/-- The cursor of a row names the row. -/
lemma commonBoundary_commonCursor (row : CommonObservation D) :
    commonBoundary (commonCursor (commonObservationOrder row)) =
      .ok (commonObservationOrder row) := by
  have hsplit : (commonCursor (commonObservationOrder row)).toList.splitOn '|' =
      [row.session.text.toList, row.identifier.text.toList,
        ((row.industryCode.map IndustryCode.text).getD "").toList] := by
    rw [commonCursor, String.toList_ofList]
    refine List.splitOn_intercalate _ ?_ (by simp)
    intro part hpart
    simp only [List.mem_cons, List.not_mem_nil, or_false] at hpart
    rcases hpart with rfl | rfl | rfl
    · exact bar_notMem_session row.session
    · exact bar_notMem_identifier row.identifier
    · exact bar_notMem_industry row.industryCode
  have hidentifier : row.identifier.text ≠ "" := by cases row.identifier <;> decide
  unfold commonBoundary
  rw [hsplit]
  simp only [List.map_cons, List.map_nil, String.ofList_toList]
  rw [(require_ok_iff (u := ())).mpr ⟨session_ne_empty row.session, hidentifier⟩]
  rfl

/-- What the scanned partitions hold after the boundary is all that is left there, or more than the
limit. -/
lemma scanCommonPartitions_collects {payload : ℕ → Option (List (CommonObservation D))}
    (boundary : Option CommonKey) {limit : ℕ} {parts : List (PartitionDescriptor String)}
    {contents : List (List (CommonObservation D))}
    (hreads : List.Forall₂ (fun part rows => readCommonPartition payload part = .ok rows) parts
      contents)
    (hdescribes : List.Forall₂ (Describes fun row => row.session.text) parts contents)
    (remaining : List (CommonObservation D)) (hlength : remaining.length ≤ limit) :
    ∃ kept, scanCommonPartitions payload boundary limit remaining parts = .ok kept ∧
      Collects limit (remaining ++
        contents.flatten.filter (after commonObservationOrder boundary)) kept := by
  induction hreads generalizing remaining with
  | nil => exact ⟨remaining, rfl, by simpa using collects_self limit remaining⟩
  | @cons part rows parts contents hpart hparts ih =>
    obtain ⟨hfirst, hdescribes⟩ := List.forall₂_cons.mp hdescribes
    rw [List.flatten_cons, List.filter_append]
    unfold scanCommonPartitions
    split
    · next hskip =>
      -- every row of the partition stands in a session before that of the boundary
      obtain ⟨key, rfl, hlast⟩ := (Option.any_eq_true _ _).mp hskip
      have hlast : part.last < (ofLex key).1 := of_decide_eq_true hlast
      have hnone : rows.filter (after commonObservationOrder (some key)) = [] := by
        refine List.filter_eq_nil_iff.mpr fun row hrow hafter => ?_
        have hle : (ofLex key).1 ≤ row.session.text :=
          Prod.Lex.monotone_fst _ _ (of_decide_eq_true hafter : key < _).le
        exact absurd (hle.trans (hfirst.le_last row hrow)) (not_le.mpr hlast)
      rw [hnone, List.nil_append]
      exact ih hdescribes remaining hlength
    · rw [hpart, ok_bind]
      have hfilter : (rows.filter fun row => boundary.all (· < commonObservationOrder row)) =
          rows.filter (after commonObservationOrder boundary) := rfl
      dsimp only
      rw [hfilter, ← List.append_assoc]
      split
      · next henough => exact ⟨_, rfl, _, rfl, .inr henough⟩
      · next hmore => exact ih hdescribes _ (Nat.le_of_not_lt hmore)

/-- The observations that a cursor leaves. -/
def commonLeft (rows : List (CommonObservation D)) : Option String → List (CommonObservation D)
  | none => rows
  | some text =>
    match commonBoundary text with
    | .ok key => rows.filter (after commonObservationOrder (some key))
    | .error _ => []

/-- A cursor that names one of the rows. -/
def NamesRow (rows : List (CommonObservation D)) (cursor : Option String) : Prop :=
  cursor = none ∨ ∃ row ∈ rows, cursor = some (commonCursor (commonObservationOrder row))

lemma exists_boundary {rows : List (CommonObservation D)} {cursor : Option String}
    (h : NamesRow rows cursor) :
    ∃ boundary, requestedBoundary cursor = .ok boundary ∧
      commonLeft rows cursor = rows.filter (after commonObservationOrder boundary) := by
  rcases h with rfl | ⟨row, -, rfl⟩
  · exact ⟨none, rfl, (List.filter_true rows).symm⟩
  · refine ⟨some (commonObservationOrder row), ?_, ?_⟩
    · rw [requestedBoundary, commonBoundary_commonCursor]
      rfl
    · simp only [commonLeft, commonBoundary_commonCursor]

lemma decodeCommonRows_ok {content rows : List (CommonObservation D)}
    (h : decodeCommonRows content = .ok rows) :
    rows.Pairwise fun a b => commonObservationOrder a < commonObservationOrder b := by
  simp only [decodeCommonRows, bind_ok_iff, require_ok_iff, pure_ok_iff] at h
  obtain ⟨_, hsorted, rfl⟩ := h
  exact hsorted

lemma readCommonPartition_ok {payload : ℕ → Option (List (CommonObservation D))}
    {part : PartitionDescriptor String} {rows : List (CommonObservation D)}
    (h : readCommonPartition payload part = .ok rows) :
    Describes (fun row => row.session.text) part rows ∧
      rows.Pairwise fun a b => commonObservationOrder a < commonObservationOrder b := by
  constructor
  · refine readPartition_describes (fun content rows hrows => ?_) h
    exact (decodeCommonRows_ok hrows).imp fun hlt => Prod.Lex.monotone_fst _ _ hlt.le
  · simp only [readCommonPartition, readPartition, bind_ok_iff, found_ok_iff, require_ok_iff,
      pure_ok_iff] at h
    obtain ⟨content, -, rows, hrows, _, -, rfl⟩ := h
    exact decodeCommonRows_ok hrows

/-- A page of verified common inputs splits what its cursor leaves. -/
lemma commonInputObservations_splits {stored : PartitionedSection String (CommonObservation D)}
    {rows : List (CommonObservation D)} (hrows : readCommonResultObservations stored = .ok rows)
    (cursor : Option String) (hcursor : NamesRow rows cursor) {limit : ℕ} (hlimit : 1 ≤ limit) :
    (rows.Pairwise fun a b => commonObservationOrder a < commonObservationOrder b) ∧
    ∃ page, readCommonInputObservationPage stored cursor limit = .ok page ∧
      Splits (commonLeft rows) (fun c => (commonLeft rows c).length) (NamesRow rows) cursor
        page := by
  simp only [readCommonResultObservations, bind_ok_iff, pure_ok_iff] at hrows
  obtain ⟨_, hcheck, contents, hread, rfl⟩ := hrows
  have hcontents := forall₂_of_mapM hread
  obtain ⟨-, -, hordered⟩ := checkPartitions_ok hcheck
  have hdescribes := hcontents.imp fun _ _ h => (readCommonPartition_ok h).1
  have hpairwise : contents.flatten.Pairwise
      fun a b => commonObservationOrder a < commonObservationOrder b := by
    refine flatten_pairwise hdescribes hordered (fun a b hlt => ?_) ?_
    · exact Prod.Lex.toLex_lt_toLex.mpr (.inl hlt)
    · exact forall_of_forall₂ hcontents fun _ _ h => (readCommonPartition_ok h).2
  obtain ⟨boundary, hboundary, hleft⟩ := exists_boundary hcursor
  obtain ⟨kept, hkept, hcollects⟩ := scanCommonPartitions_collects boundary hcontents hdescribes
    [] (Nat.zero_le limit)
  rw [List.nil_append, ← hleft] at hcollects
  refine ⟨hpairwise, pageOf (fun row => commonCursor (commonObservationOrder row)) kept limit,
    ?_, ?_⟩
  · unfold readCommonInputObservationPage
    rw [(require_ok_iff (u := ())).mpr hlimit, hboundary, hcheck]
    simp only [ok_bind, hkept]
    rfl
  · refine hcollects.splits hlimit fun n row hrow => ?_
    rw [hleft] at hrow ⊢
    refine ⟨?_, .inr ⟨row, List.mem_of_mem_filter (List.mem_of_getElem? hrow), rfl⟩⟩
    simp only [commonLeft, commonBoundary_commonCursor]
    simp only [← wanted_true] at hrow ⊢
    exact filter_wanted_getElem hpairwise hrow

end Common

/-! ### Factor days -/

section Factor

variable {D : Type}

/-- The rows of a horizon stand in the order of their sessions. -/
lemma session_lt_of_coordinate {a b : FactorDay D} (h : factorCoordinate a < factorCoordinate b)
    (hhorizon : a.horizon = b.horizon) : a.session.text < b.session.text := by
  rcases Prod.Lex.toLex_lt_toLex.mp h with hlt | ⟨-, hlt⟩
  · rw [hhorizon] at hlt
    exact absurd hlt (lt_irrefl _)
  · exact hlt

/-- The span of a horizon, as the descriptor of its rows has it. -/
lemma find_spanOf (rows : List (FactorDay D)) (horizon : Horizon) :
    (horizons.filterMap (spanOf rows)).find? (fun span => span.horizon = horizon) =
      spanOf rows horizon := by
  have hself : ∀ horizon span, spanOf rows horizon = some span → span.horizon = horizon := by
    intro horizon span h
    unfold spanOf at h
    dsimp only at h
    split at h
    · cases h
      rfl
    · cases h
  have hfind : ∀ hs : List Horizon, hs.Nodup →
      (hs.filterMap (spanOf rows)).find? (fun span => span.horizon = horizon) =
        if horizon ∈ hs then spanOf rows horizon else none := by
    intro hs hnodup
    induction hs with
    | nil => rfl
    | cons first hs ih =>
      obtain ⟨hfirst, hnodup⟩ := List.nodup_cons.mp hnodup
      cases hspan : spanOf rows first with
      | none =>
        rw [List.filterMap_cons_none hspan, ih hnodup]
        by_cases hsame : horizon = first
        · subst hsame
          rw [if_neg hfirst, if_pos List.mem_cons_self, hspan]
        · simp only [List.mem_cons, hsame, false_or]
      | some span =>
        have hhorizon := hself first span hspan
        rw [List.filterMap_cons_some hspan]
        by_cases hsame : horizon = first
        · subst hsame
          rw [List.find?_cons_of_pos (by simpa using hhorizon), if_pos List.mem_cons_self, hspan]
        · have hne : ¬span.horizon = horizon := fun h => hsame (h.symm.trans hhorizon)
          rw [List.find?_cons_of_neg (by simpa using hne), ih hnodup]
          simp only [List.mem_cons, hsame, false_or]
  rw [hfind horizons (by decide), if_pos (by cases horizon <;> decide)]

/-- The rows of the horizon of a span lie within it. -/
lemma spanOf_bounds {rows : List (FactorDay D)} {horizon : Horizon}
    (hsorted : (rows.map factorCoordinate).Pairwise (· < ·)) {row : FactorDay D}
    (hrow : row ∈ rows) (hhorizon : row.horizon = horizon) :
    ∃ span, spanOf rows horizon = some span ∧ span.firstSession ≤ row.session.text ∧
      row.session.text ≤ span.lastSession := by
  let sessions := (rows.filter fun row => row.horizon = horizon).map fun row => row.session.text
  have hmem : row.session.text ∈ sessions :=
    List.mem_map_of_mem (List.mem_filter.mpr ⟨hrow, by simpa using hhorizon⟩)
  have hpairwise : sessions.Pairwise fun a b => id a ≤ id b := by
    refine List.pairwise_map.mpr ?_
    have hfilter := (List.pairwise_map.mp hsorted).filter fun row => row.horizon = horizon
    refine hfilter.imp_of_mem fun {a b} ha hb hlt => (session_lt_of_coordinate hlt ?_).le
    have ha' : a.horizon = horizon := by simpa using List.of_mem_filter ha
    have hb' : b.horizon = horizon := by simpa using List.of_mem_filter hb
    exact ha'.trans hb'.symm
  cases hfirst : sessions.head? with
  | none => exact absurd hmem (by rw [List.head?_eq_none_iff.mp hfirst]; exact List.not_mem_nil)
  | some first =>
    cases hlast : sessions.getLast? with
    | none => exact absurd hmem (by rw [List.getLast?_eq_none_iff.mp hlast]; exact List.not_mem_nil)
    | some last =>
      refine ⟨⟨horizon, sessions.length, first, last⟩, ?_, ?_, ?_⟩
      · simp only [spanOf]
        rw [show ((rows.filter fun row => row.horizon = horizon).map
          fun row => row.session.text) = sessions from rfl, hfirst, hlast]
      · exact first_le_of_pairwise hpairwise (by rw [hfirst]; rfl) _ hmem
      · exact le_last_of_pairwise hpairwise (by rw [hlast]; rfl) _ hmem

lemma readFactorDescribedPartition_ok {stored : FactorEvidence D} {part : FactorDescriptor}
    {rows : List (FactorDay D)} (h : readFactorDescribedPartition stored part = .ok rows) :
    (rows.map factorCoordinate).Pairwise (· < ·) ∧
      horizons.filterMap (spanOf rows) = part.horizons := by
  simp only [readFactorDescribedPartition, bind_ok_iff, found_ok_iff, require_ok_iff,
    pure_ok_iff] at h
  obtain ⟨rows, -, _, hsorted, _, ⟨-, hspans⟩, rfl⟩ := h
  exact ⟨hsorted, hspans⟩

/-- A span that is skipped has no wanted row. -/
lemma not_matches_of_skips {filter : FactorDayFilter} {after : Option String} {span : HorizonSpan}
    (hskips : filter.skips after span = true) {row : FactorDay D}
    (hfirst : span.firstSession ≤ row.session.text) (hlast : row.session.text ≤ span.lastSession) :
    wanted (fun row : FactorDay D => row.session.text) filter.matches after row = false := by
  have habsurd : wanted (fun row : FactorDay D => row.session.text) filter.matches after row =
      true → False := by
    intro hwanted
    simp only [wanted, FactorDayFilter.matches, Bool.and_eq_true] at hwanted
    obtain ⟨hafter, ⟨-, hstart⟩, hend⟩ := hwanted
    simp only [FactorDayFilter.skips, Bool.or_eq_true, Option.any_eq_true] at hskips
    obtain (⟨boundary, rfl, hle⟩ | ⟨start, hsome, hlt⟩) | ⟨stop, hsome, hlt⟩ := hskips
    · have hlt : boundary < row.session.text := by simpa using hafter
      exact absurd (hlt.trans_le hlast) (not_lt.mpr (of_decide_eq_true hle))
    · rw [hsome] at hstart
      have hle : start ≤ row.session.text := by simpa using hstart
      exact absurd (hle.trans hlast) (not_le.mpr (of_decide_eq_true hlt))
    · rw [hsome] at hend
      have hle : row.session.text ≤ stop := by simpa using hend
      exact absurd (hfirst.trans hle) (not_le.mpr (of_decide_eq_true hlt))
  exact Bool.eq_false_iff.mpr habsurd

/-- What the scanned partitions hold of the wanted rows is all of them, or more than the limit. -/
lemma scanFactorPartitions_collects {stored : FactorEvidence D} (filter : FactorDayFilter)
    (after : Option String) {limit : ℕ} {parts : List FactorDescriptor}
    {contents : List (List (FactorDay D))}
    (hreads : List.Forall₂ (fun part rows => readFactorDescribedPartition stored part = .ok rows)
      parts contents)
    (selected : List (FactorDay D)) (hlength : selected.length ≤ limit) :
    ∃ kept, scanFactorPartitions stored filter after limit selected parts = .ok kept ∧
      Collects limit (selected ++ contents.flatten.filter
        (wanted (fun row => row.session.text) filter.matches after)) kept := by
  induction hreads generalizing selected with
  | nil => exact ⟨selected, rfl, by simpa using collects_self limit selected⟩
  | @cons part rows parts contents hpart hparts ih =>
    obtain ⟨hsorted, hspans⟩ := readFactorDescribedPartition_ok hpart
    have hspan := find_spanOf rows filter.horizon
    rw [hspans] at hspan
    rw [List.flatten_cons, List.filter_append]
    have hnone : (∀ row ∈ rows, wanted (fun row => row.session.text) filter.matches after row =
        false) → rows.filter (wanted (fun row => row.session.text) filter.matches after) = [] :=
      fun h => List.filter_eq_nil_iff.mpr fun row hrow => by rw [h row hrow]; exact Bool.false_ne_true
    unfold scanFactorPartitions
    rw [hspan]
    cases hrows : spanOf rows filter.horizon with
    | none =>
      rw [hnone, List.nil_append]
      · exact ih selected hlength
      · intro row hrow
        have hhorizon : row.horizon ≠ filter.horizon := by
          intro hsame
          obtain ⟨span, hsome, -⟩ := spanOf_bounds hsorted hrow hsame
          rw [hrows] at hsome
          cases hsome
        simp [wanted, FactorDayFilter.matches, hhorizon]
    | some span =>
      dsimp only
      split
      · next hskips =>
        rw [hnone, List.nil_append]
        · exact ih selected hlength
        · intro row hrow
          by_cases hhorizon : row.horizon = filter.horizon
          · obtain ⟨span', hsome, hfirst, hlast⟩ := spanOf_bounds hsorted hrow hhorizon
            rw [hrows, Option.some.injEq] at hsome
            exact not_matches_of_skips (hsome ▸ hskips) hfirst hlast
          · simp [wanted, FactorDayFilter.matches, hhorizon]
      · rw [hpart, ok_bind]
        have hfilter : (rows.filter fun row => after.all (· < row.session.text) &&
            filter.matches row) =
            rows.filter (wanted (fun row => row.session.text) filter.matches after) := rfl
        rw [hfilter, ← List.append_assoc]
        generalize selected ++ rows.filter (wanted (fun row => row.session.text) filter.matches
          after) = collected
        split
        · next henough =>
          refine ⟨_, rfl, collected.drop (limit + 1) ++ contents.flatten.filter
            (wanted (fun row => row.session.text) filter.matches after), ?_, .inr ?_⟩
          · rw [← List.append_assoc, List.take_append_drop]
          · rw [List.length_take]
            omega
        · next hmore => exact ih collected (Nat.le_of_not_lt hmore)

/-! ### Factor days in order -/

/-- The spans of a partition follow the sessions before and move them on. -/
lemma checkSpans_ok {spans : List HorizonSpan} {previous previous' : LastSessions}
    (hdistinct : (spans.map HorizonSpan.horizon).Nodup)
    (h : checkSpans previous spans = .ok previous') :
    (∀ span ∈ spans, previous span.horizon < span.firstSession ∧
      span.firstSession ≤ span.lastSession ∧ previous' span.horizon = span.lastSession) ∧
    ∀ horizon, horizon ∉ spans.map HorizonSpan.horizon → previous' horizon = previous horizon := by
  induction spans generalizing previous with
  | nil =>
    cases h
    exact ⟨nofun, fun _ _ => rfl⟩
  | cons span spans ih =>
    simp only [checkSpans, bind_ok_iff, require_ok_iff] at h
    obtain ⟨_, ⟨-, -, -, hle, hlt⟩, hrest⟩ := h
    obtain ⟨hhead, hdistinct⟩ := List.nodup_cons.mp hdistinct
    obtain ⟨hspans, hothers⟩ := ih hdistinct hrest
    refine ⟨List.forall_mem_cons.mpr ⟨⟨hlt, hle, ?_⟩, fun other hother => ?_⟩, ?_⟩
    · rw [hothers _ hhead, Function.update_self]
    · obtain ⟨hfirst, hbounds⟩ := hspans other hother
      have hne : other.horizon ≠ span.horizon :=
        fun hsame => hhead (hsame ▸ List.mem_map_of_mem hother)
      rw [Function.update_of_ne hne] at hfirst
      exact ⟨hfirst, hbounds⟩
    · intro horizon hnot
      rw [List.map_cons, List.mem_cons, not_or] at hnot
      rw [hothers horizon hnot.2, Function.update_of_ne hnot.1]

/-- A row lies in the span of its horizon, which the descriptor of its partition has. -/
lemma exists_span {rows : List (FactorDay D)} {part : FactorDescriptor}
    (hsorted : (rows.map factorCoordinate).Pairwise (· < ·))
    (hspans : horizons.filterMap (spanOf rows) = part.horizons) {row : FactorDay D}
    (hrow : row ∈ rows) :
    ∃ span ∈ part.horizons, span.horizon = row.horizon ∧ span.firstSession ≤ row.session.text ∧
      row.session.text ≤ span.lastSession := by
  obtain ⟨span, hspan, hfirst, hlast⟩ := spanOf_bounds hsorted hrow rfl
  have hfind := find_spanOf rows row.horizon
  rw [hspans, hspan] at hfind
  exact ⟨span, List.mem_of_find?_eq_some hfind, by simpa using List.find?_some hfind, hfirst, hlast⟩

/-- The days of every horizon are in order over all partitions. -/
lemma factorDays_ordered {stored : FactorEvidence D} {parts : List FactorDescriptor}
    {contents : List (List (FactorDay D))}
    (hreads : List.Forall₂ (fun part rows => readFactorDescribedPartition stored part = .ok rows)
      parts contents)
    {index : ℕ} {previous final : LastSessions}
    (hcheck : checkFactorParts index previous parts = .ok final) :
    (∀ row ∈ contents.flatten, previous row.horizon < row.session.text) ∧
      contents.flatten.Pairwise fun a b =>
        a.horizon = b.horizon → a.session.text < b.session.text := by
  induction hreads generalizing index previous with
  | nil => simp
  | @cons part rows parts contents hpart hparts ih =>
    simp only [checkFactorParts, bind_ok_iff, require_ok_iff] at hcheck
    obtain ⟨_, -, next, hspansCheck, _, ⟨hincreasing, -⟩, hrest⟩ := hcheck
    obtain ⟨hsorted, hspans⟩ := readFactorDescribedPartition_ok hpart
    obtain ⟨hafter, hordered⟩ := ih hrest
    have hdistinct : (part.horizons.map HorizonSpan.horizon).Nodup := by
      refine List.pairwise_map.mpr ((List.pairwise_map.mp hincreasing).imp fun hlt hsame => ?_)
      rw [hsame] at hlt
      exact absurd hlt (lt_irrefl _)
    obtain ⟨hinside, houtside⟩ := checkSpans_ok hdistinct hspansCheck
    have hmono : ∀ horizon, previous horizon ≤ next horizon := by
      intro horizon
      by_cases hmem : horizon ∈ part.horizons.map HorizonSpan.horizon
      · obtain ⟨span, hspan, rfl⟩ := List.mem_map.mp hmem
        obtain ⟨hlt, hle, hlast⟩ := hinside span hspan
        exact hlast ▸ (hlt.le.trans hle)
      · exact (houtside horizon hmem).ge
    have hrows : ∀ row ∈ rows, previous row.horizon < row.session.text ∧
        row.session.text ≤ next row.horizon := by
      intro row hrow
      obtain ⟨span, hspan, hhorizon, hfirst, hlast⟩ := exists_span hsorted hspans hrow
      obtain ⟨hlt, -, hnext⟩ := hinside span hspan
      rw [hhorizon] at hlt hnext
      exact ⟨hlt.trans_le hfirst, hlast.trans hnext.ge⟩
    rw [List.flatten_cons]
    constructor
    · intro row hrow
      rcases List.mem_append.mp hrow with hmem | hmem
      · exact (hrows row hmem).1
      · exact (hmono _).trans_lt (hafter row hmem)
    · refine List.pairwise_append.mpr ⟨?_, hordered, fun a ha b hb hsame => ?_⟩
      · exact (List.pairwise_map.mp hsorted).imp session_lt_of_coordinate
      · exact ((hrows a ha).2.trans_lt (hsame ▸ hafter b hb))

/-- A page of verified daily evidence splits what its cursor leaves. -/
lemma factorDays_splits {stored : FactorEvidence D} {rows : List (FactorDay D)}
    (hrows : readFactorDays stored = .ok rows) {filter : FactorDayFilter} (hfilter : filter.Valid)
    (after : Option String) (hafter : after.all isSession) {limit : ℕ}
    (hlimit : 1 ≤ limit ∧ limit ≤ 50) :
    ((rows.filter filter.matches).Pairwise fun a b => a.session.text < b.session.text) ∧
    ∃ page, readFactorDailyPage stored filter after limit = .ok page ∧
      Splits (fun c => (rows.filter filter.matches).filter
          (Pagination.after (fun row => row.session.text) c))
        (fun c => ((rows.filter filter.matches).filter
          (Pagination.after (fun row => row.session.text) c)).length)
        (fun c => c.all isSession) after page := by
  simp only [readFactorDays, bind_ok_iff, pure_ok_iff] at hrows
  obtain ⟨parts, hparts, contents, hread, rfl⟩ := hrows
  have hcontents := forall₂_of_mapM hread
  have hdescriptors := hparts
  simp only [factorPartitionDescriptors, bind_ok_iff, require_ok_iff, pure_ok_iff]
    at hdescriptors
  obtain ⟨_, -, final, hcheck, _, -, rfl⟩ := hdescriptors
  have hpairwise : (contents.flatten.filter filter.matches).Pairwise
      fun a b => a.session.text < b.session.text := by
    refine ((factorDays_ordered hcontents hcheck).2.filter filter.matches).imp_of_mem
      fun {a b} ha hb hlt => hlt ?_
    have hhorizon : ∀ row ∈ contents.flatten.filter filter.matches,
        row.horizon = filter.horizon := by
      intro row hrow
      have hmatches := List.of_mem_filter hrow
      simp only [FactorDayFilter.matches, Bool.and_eq_true, decide_eq_true_eq] at hmatches
      exact hmatches.1.1
    exact (hhorizon a ha).trans (hhorizon b hb).symm
  obtain ⟨kept, hkept, hcollects⟩ := scanFactorPartitions_collects filter after hcontents []
    (Nat.zero_le limit)
  have hwanted : contents.flatten.filter (wanted (fun row => row.session.text) filter.matches
      after) = (contents.flatten.filter filter.matches).filter
        (Pagination.after (fun row => row.session.text) after) := by
    rw [List.filter_filter]
    rfl
  rw [List.nil_append, hwanted] at hcollects
  refine ⟨hpairwise, pageOf (fun row => row.session.text) kept limit, ?_, ?_⟩
  · unfold readFactorDailyPage
    rw [(require_ok_iff (u := ())).mpr hlimit, (require_ok_iff (u := ())).mpr ⟨hfilter, hafter⟩,
      hparts]
    simp only [ok_bind, hkept]
    rfl
  · refine hcollects.splits hlimit.1 fun n row hrow => ⟨?_, row.session.iso⟩
    simp only [← wanted_true] at hrow ⊢
    exact filter_wanted_getElem hpairwise hrow

/-! ### Factor periods -/

/-- A period continues the pages of its granularity. -/
lemma accepts_period {row : FactorPeriod D} (h : row.periodValid = true) :
    row.granularity.accepts row.period = true := by
  unfold FactorPeriod.periodValid at h
  obtain ⟨y₁, y₂, y₃, y₄, m₁, m₂, d₁, d₂, htext, hdigits, hyear, hmonth, hle⟩ :=
    session_parts row.firstSignalSession
  have hfirst : ∀ month, 1 ≤ daysInMonth (Nat.ofDigitChars 10 [y₁, y₂, y₃, y₄] 0) month := by
    intro month
    unfold daysInMonth
    split
    · split <;> decide
    · split <;> decide
  have hone : Nat.ofDigitChars 10 ['0', '1'] 0 = 1 := by decide
  simp only [List.all_cons, List.all_nil, Bool.and_true, Bool.and_eq_true] at hdigits
  obtain ⟨h₁, h₂, h₃, h₄, h₅, h₆, -⟩ := hdigits
  split at h
  · next hgranularity =>
    rw [hgranularity]
    exact h
  · next hgranularity =>
    simp only [Bool.and_eq_true, decide_eq_true_eq] at h
    have hperiod : (row.period ++ "-01").toList =
        [y₁, y₂, y₃, y₄, '-', m₁, m₂, '-', '0', '1'] := by
      rw [String.toList_append, ← h.1, htext]
      rfl
    rw [hgranularity]
    simp [Granularity.accepts, isSession, hperiod, h₁, h₂, h₃, h₄, h₅, h₆, hyear, hmonth, hle,
      hone, hfirst, show '0'.isDigit = true from rfl, show '1'.isDigit = true from rfl]
  · next hgranularity =>
    simp only [Bool.and_eq_true, decide_eq_true_eq] at h
    have hperiod : (row.period ++ "-01-01").toList =
        [y₁, y₂, y₃, y₄, '-', '0', '1', '-', '0', '1'] := by
      rw [String.toList_append, ← h.1, htext]
      rfl
    rw [hgranularity]
    simp [Granularity.accepts, isSession, hperiod, h₁, h₂, h₃, h₄, hyear, hone, hfirst,
      show '0'.isDigit = true from rfl, show '1'.isDigit = true from rfl]

lemma periods_splits {stored : FactorEvidence D} {rows : List (FactorPeriod D)}
    (hrows : readFactorSummaryBundle stored = .ok rows) (horizon : Horizon)
    (granularity : Granularity) (after : Option String) (hafter : after.all granularity.accepts)
    {limit : ℕ} (hlimit : 1 ≤ limit ∧ limit ≤ 50) :
    ((rows.filter fun row => row.horizon = horizon && row.granularity = granularity).Pairwise
      fun a b => a.period < b.period) ∧
    ∃ page, readFactorPeriodPage stored horizon granularity after limit = .ok page ∧
      Splits (fun c => (rows.filter fun row => row.horizon = horizon &&
          row.granularity = granularity).filter (Pagination.after FactorPeriod.period c))
        (fun c => ((rows.filter fun row => row.horizon = horizon &&
          row.granularity = granularity).filter (Pagination.after FactorPeriod.period c)).length)
        (fun c => c.all granularity.accepts) after page := by
  have hbundle := hrows
  simp only [readFactorSummaryBundle, bind_ok_iff, require_ok_iff, pure_ok_iff] at hbundle
  obtain ⟨_, -, _, ⟨-, hvalid⟩, _, hkeys, _, -, rfl⟩ := hbundle
  have hsame : ∀ row ∈ stored.periods.filter fun row => row.horizon = horizon &&
      row.granularity = granularity, row.horizon = horizon ∧ row.granularity = granularity := by
    intro row hrow
    simpa using List.of_mem_filter hrow
  have hpairwise : (stored.periods.filter fun row => row.horizon = horizon &&
      row.granularity = granularity).Pairwise fun a b => a.period < b.period := by
    refine ((List.pairwise_map.mp hkeys).filter _).imp_of_mem fun {a b} ha hb hlt => ?_
    obtain ⟨hhorizon, hgranularity⟩ := hsame a ha
    obtain ⟨hhorizon', hgranularity'⟩ := hsame b hb
    rcases Prod.Lex.toLex_lt_toLex.mp hlt with hlt | ⟨-, hlt⟩
    · rw [hhorizon, hhorizon'] at hlt
      exact absurd hlt (lt_irrefl _)
    rcases Prod.Lex.toLex_lt_toLex.mp hlt with hlt | ⟨-, hlt⟩
    · rw [hgranularity, hgranularity'] at hlt
      exact absurd hlt (lt_irrefl _)
    · exact hlt
  refine ⟨hpairwise, pageOf FactorPeriod.period ((stored.periods.filter fun row =>
    row.horizon = horizon && row.granularity = granularity).filter
      (Pagination.after FactorPeriod.period after)) limit, ?_, ?_⟩
  · unfold readFactorPeriodPage
    rw [(require_ok_iff (u := ())).mpr hlimit, (require_ok_iff (u := ())).mpr hafter, hrows]
    simp only [ok_bind, List.filter_filter]
    congr 3
    funext row
    rw [Bool.and_comm]
    rfl
  · refine (collects_self limit _).splits hlimit.1 fun n row hrow => ⟨?_, ?_⟩
    · simp only [← wanted_true] at hrow ⊢
      exact filter_wanted_getElem hpairwise hrow
    · have hmem := List.mem_of_mem_filter (List.mem_of_getElem? hrow)
      have hgranularity := (hsame row hmem).2
      exact hgranularity ▸ accepts_period
        (List.all_eq_true.mp hvalid row (List.mem_of_mem_filter hmem))

end Factor

/-! ### Sections -/

section Sections

variable {D : Type}

/-- Places that are one text. -/
lemma place_lt {a b : String} (h : a < b) :
    (toLex (a, toLex ("", "")) : CommonKey) < toLex (b, toLex ("", "")) :=
  Prod.Lex.toLex_lt_toLex.mpr (.inl h)

/-- Pages that split the rows of a section, followed to their end. -/
lemma follow_map {R : Type} {f : R → SectionRow D} {rows : List R}
    {read : ℕ → Option String → Except ResultError (Page String (SectionRow D))}
    (rest : Option String → List R) (valid : Option String → Prop) (hrest : rest none = rows)
    (hvalid : valid none)
    (hread : ∀ i c, valid c → ∃ page : Page String R, read i c = .ok (page.map f) ∧
      Splits rest (fun c => (rest c).length) valid c page) :
    follow read ((rows.map f).length + 1) 0 none = .ok (some (rows.map f)) := by
  have hsteps : ∀ i c, valid c → ∃ page, read i c = .ok page ∧
      Splits (fun c => (rest c).map f) (fun c => (rest c).length) valid c page := by
    intro i c hc
    obtain ⟨page, hpage, hsplits⟩ := hread i c hc
    exact ⟨_, hpage, hsplits.map f⟩
  have hfuel : (rest none).length < (rows.map f).length + 1 := by
    rw [hrest, List.length_map]
    omega
  rw [follow_lossless hsteps 0 hvalid hfuel, hrest]

/-- Following the pages of a section of a verified Result from its start ends with exactly the
matching rows, each once and in the order of the section. -/
theorem result_pages_lossless (result : ResearchResult D) (query : SectionQuery)
    {rows : List (SectionRow D)} (hrows : matchingRows result query = .ok rows) (limits : ℕ → ℕ)
    (hlimits : ∀ i, query.Accepts (limits i)) :
    follow (fun i after => readSemanticResultSection result query after (limits i))
        (rows.length + 1) 0 none = .ok (some rows) ∧
      rows.Pairwise fun a b => a.place < b.place := by
  cases query with
  | factorPeriods horizon granularity =>
    simp only [matchingRows, bind_ok_iff, require_ok_iff, pure_ok_iff] at hrows
    obtain ⟨_, hkind, periods, hperiods, rfl⟩ := hrows
    have hsplits := fun i c hc => periods_splits hperiods horizon granularity c hc (hlimits i)
    refine ⟨follow_map (fun c => (periods.filter fun row => row.horizon = horizon &&
      row.granularity = granularity).filter (Pagination.after FactorPeriod.period c))
      (fun c => c.all granularity.accepts) (List.filter_true _) rfl fun i c hc => ?_,
      List.pairwise_map.mpr ((hsplits 0 none rfl).1.imp place_lt)⟩
    obtain ⟨page, hpage, hpageSplits⟩ := (hsplits i c hc).2
    refine ⟨page, ?_, hpageSplits⟩
    simp only [readSemanticResultSection, (require_ok_iff (u := ())).mpr hkind, ok_bind, hpage]
    rfl
  | factorObservations filter =>
    simp only [matchingRows, bind_ok_iff, require_ok_iff, pure_ok_iff] at hrows
    obtain ⟨_, hkind, days, hdays, rfl⟩ := hrows
    have hsplits := fun i c hc => factorDays_splits hdays (hlimits i).1 c hc (hlimits i).2
    refine ⟨follow_map (fun c => (days.filter filter.matches).filter
      (Pagination.after (fun row => row.session.text) c)) (fun c => c.all isSession)
      (List.filter_true _) rfl fun i c hc => ?_, List.pairwise_map.mpr ((hsplits 0 none rfl).1.imp place_lt)⟩
    obtain ⟨page, hpage, hpageSplits⟩ := (hsplits i c hc).2
    refine ⟨page, ?_, hpageSplits⟩
    simp only [readSemanticResultSection, (require_ok_iff (u := ())).mpr hkind, ok_bind, hpage]
    rfl
  | commonInputObservations =>
    by_cases hhas : result.hasCommonInputs = true
    · simp only [matchingRows, hhas, if_true, bind_ok_iff, pure_ok_iff] at hrows
      obtain ⟨observations, hobservations, rfl⟩ := hrows
      have hsplits := fun i c hc => commonInputObservations_splits hobservations c hc (hlimits i)
      refine ⟨follow_map (commonLeft observations) (NamesRow observations) rfl (.inl rfl) fun i c hc => ?_,
        List.pairwise_map.mpr (hsplits 0 none (.inl rfl)).1⟩
      obtain ⟨page, hpage, hpageSplits⟩ := (hsplits i c hc).2
      refine ⟨page, ?_, hpageSplits⟩
      simp only [readSemanticResultSection, hhas, if_true, hpage, ok_bind]
      rfl
    · simp only [matchingRows, if_neg hhas, pure_ok_iff] at hrows
      subst hrows
      refine ⟨?_, List.Pairwise.nil⟩
      simp only [readSemanticResultSection, if_neg hhas]
      rfl
  | strategyObservations =>
    simp only [matchingRows, bind_ok_iff, require_ok_iff, pure_ok_iff] at hrows
    obtain ⟨_, hkind, observations, hobservations, rfl⟩ := hrows
    have hsplits := fun i c => strategyObservations_splits hobservations c (hlimits i)
    refine ⟨follow_map (fun c => observations.filter (Pagination.after Observation.key c))
      (fun _ => True) (List.filter_true _) trivial fun i c _ => ?_,
      List.pairwise_map.mpr ((hsplits 0 none).1.imp place_lt)⟩
    obtain ⟨page, hpage, hpageSplits⟩ := (hsplits i c).2
    refine ⟨page, ?_, hpageSplits⟩
    simp only [readSemanticResultSection, (require_ok_iff (u := ())).mpr hkind, ok_bind, hpage]
    rfl
  | terminalPositions =>
    simp only [matchingRows, bind_ok_iff, require_ok_iff, pure_ok_iff] at hrows
    obtain ⟨_, hkind, positions, hpositions, rfl⟩ := hrows
    have hsplits := fun i c => readBoundedPage_splits hpositions c (hlimits i)
    refine ⟨follow_map (fun c => positions.filter (Pagination.after Position.instrumentId c))
      (fun _ => True) (List.filter_true _) trivial fun i c _ => ?_,
      List.pairwise_map.mpr ((hsplits 0 none).1.imp place_lt)⟩
    obtain ⟨page, hpage, hpageSplits⟩ := (hsplits i c).2
    refine ⟨page, ?_, hpageSplits⟩
    simp only [readSemanticResultSection, (require_ok_iff (u := ())).mpr hkind, ok_bind,
      readTerminalPositionPage, hpage]
    rfl

end Sections

/-- A Strategy Result of three sessions in two partitions, whose first one has two of them. -/
def sampleResult : ResearchResult Unit where
  researchKind := .strategyBacktest
  hasCommonInputs := false
  strategyObservations :=
    { partitions := [⟨0, 2, "2024-01-02", "2024-01-03"⟩, ⟨1, 1, "2024-01-04", "2024-01-04"⟩]
      payload := fun name =>
        if name = 0 then some [⟨⟨"2024-01-02", by decide⟩, ()⟩, ⟨⟨"2024-01-03", by decide⟩, ()⟩]
        else if name = 1 then some [⟨⟨"2024-01-04", by decide⟩, ()⟩]
        else none }
  terminalPositions := ⟨[], fun _ => none⟩
  commonInputObservations := ⟨[], fun _ => none⟩
  factorEvidence := ⟨[], fun _ => none, [], true⟩

theorem result_pages_lossless_sample :
    ∃ rows, follow (fun i after => readSemanticResultSection sampleResult .strategyObservations
        after (i + 1)) 4 0 none = .ok (some rows) ∧
      rows.map SectionRow.place = [toLex ("2024-01-02", toLex ("", "")),
        toLex ("2024-01-03", toLex ("", "")), toLex ("2024-01-04", toLex ("", ""))] := by
  have hrows : matchingRows sampleResult .strategyObservations = .ok
      [.observation ⟨⟨"2024-01-02", by decide⟩, ()⟩, .observation ⟨⟨"2024-01-03", by decide⟩, ()⟩,
        .observation ⟨⟨"2024-01-04", by decide⟩, ()⟩] := by
    rfl
  exact ⟨_, (result_pages_lossless sampleResult .strategyObservations hrows (· + 1)
    fun i => Nat.le_add_left 1 i).1, rfl⟩

end ThesisTrace.ResearchRun.Results
