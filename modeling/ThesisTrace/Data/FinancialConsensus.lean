import Mathlib.Data.List.Dedup
import ThesisTrace.Data.FinancialStates

/-!
# Conflicts that agree

A read adds one row for the conflicting rows of an observation. When the observations of a family
are settled, these rows are the same for all reads that reach them, so that a read filters the
rows of the family with one row for each conflict.
-/

namespace ThesisTrace.FinancialSeries
open Transaction AsOf
open scoped KeyOrder

variable {S I V T : Type}

/-! ### Groups -/

section Least
variable {κ : Type} [LinearOrder κ] {column : FinancialRow S I V T → κ}
variable {first first' : FinancialRow S I V T} {rest rest' : List (FinancialRow S I V T)}

lemma leastOf_mem : ∃ row ∈ first :: rest, column row = leastOf column first rest := by
  induction rest using List.reverseRecOn with
  | nil => exact ⟨first, List.mem_singleton_self _, rfl⟩
  | append_singleton rest last ih =>
    obtain ⟨row, hrow, heq⟩ := ih
    unfold leastOf at heq ⊢
    rw [List.foldl_append, List.foldl_cons, List.foldl_nil, ← heq]
    rcases min_choice (column row) (column last) with hleft | hright
    · exact ⟨row, by rw [← List.cons_append]; exact List.mem_append_left _ hrow, hleft.symm⟩
    · exact ⟨last, List.mem_cons_of_mem _ (List.mem_append_right _ (List.mem_singleton_self _)),
        hright.symm⟩

lemma leastOf_le : ∀ row ∈ first :: rest, leastOf column first rest ≤ column row := by
  induction rest using List.reverseRecOn with
  | nil =>
    intro row hrow
    rw [List.mem_singleton.mp hrow]
    exact le_rfl
  | append_singleton rest last ih =>
    intro row hrow
    unfold leastOf at ih ⊢
    rw [List.foldl_append, List.foldl_cons, List.foldl_nil]
    rw [← List.cons_append, List.mem_append, List.mem_singleton] at hrow
    rcases hrow with hbefore | rfl
    · exact (min_le_left _ _).trans (ih row hbefore)
    · exact min_le_right _ _

lemma leastOf_congr (h : ∀ row, row ∈ first :: rest ↔ row ∈ first' :: rest') :
    leastOf column first rest = leastOf column first' rest' := by
  obtain ⟨row, hrow, heq⟩ := @leastOf_mem _ _ _ _ _ _ column first rest
  obtain ⟨row', hrow', heq'⟩ := @leastOf_mem _ _ _ _ _ _ column first' rest'
  apply le_antisymm
  · rw [← heq']
    exact leastOf_le row' ((h row').mpr hrow')
  · rw [← heq]
    exact leastOf_le row ((h row).mp hrow)

end Least

section Group
variable [LinearOrder S] [LinearOrder I] [LinearOrder T] [DecidableEq V]
variable {group group' : List (FinancialRow S I V T)} {row : FinancialRow S I V T}
variable {correction : Bool}

omit [LinearOrder I] [LinearOrder T] [DecidableEq V] in
lemma available_le_consensusSession {available observed : WithBot S} {effective : S}
    (h : consensusSession correction available observed = some effective) :
    available ≤ effective := by
  unfold consensusSession at h
  split at h
  · rw [← Option.some.inj h]
    split
    · exact WithBot.coe_le_coe.mpr (le_max_left _ _)
    · exact le_rfl
  · split at h
    · cases h
    · rw [← Option.some.inj h]
      exact le_rfl
  · cases h

/-- What an agreeing row takes from its group. -/
structure Agrees (group : List (FinancialRow S I V T)) (row : FinancialRow S I V T) : Prop where
  status : row.availabilityStatus = "available"
  instrument : ∃ member ∈ group, member.instrumentId = row.instrumentId
  digest : ∃ member ∈ group, member.sourceRowSha256 = row.sourceRowSha256
  available : ∃ member ∈ group, member.sourceAvailableSession ≤ row.effectiveAvailableSession
  several : 2 ≤ group.length
  figure : ∀ column figure, row.figure column = some figure →
    ∃ member ∈ group, member.figure column = some figure

lemma agreeingRow_agrees (h : agreeingRow correction group = some row) : Agrees group row := by
  unfold agreeingRow at h
  split at h
  · next first second rest =>
    obtain ⟨effective, heffective, rfl⟩ := Option.map_eq_some_iff.mp h
    refine ⟨rfl, leastOf_mem, leastOf_mem, ?_, ?_, ?_⟩
    · obtain ⟨member, hmember, heq⟩ := @leastOf_mem _ _ _ _ _ _
        FinancialRow.sourceAvailableSession first (second :: rest)
      exact ⟨member, hmember, heq ▸ available_le_consensusSession heffective⟩
    · exact Nat.le_add_left 2 rest.length
    · intro column figure hfigure
      change (if _ then _ else _) = _ at hfigure
      split at hfigure
      · exact ⟨first, List.mem_cons_self, hfigure⟩
      · cases hfigure
  · cases h

omit [DecidableEq V] [LinearOrder S] [LinearOrder I] [LinearOrder T] in
lemma figures_agree_congr {first first' : FinancialRow S I V T}
    {rest rest' : List (FinancialRow S I V T)} {column : String}
    (h : ∀ row, row ∈ first :: rest ↔ row ∈ first' :: rest')
    (hagree : ∀ row ∈ rest, row.figure column = first.figure column) :
    first.figure column = first'.figure column ∧
      ∀ row ∈ rest', row.figure column = first'.figure column := by
  have hall : ∀ row ∈ first' :: rest', row.figure column = first.figure column := by
    intro row hrow
    rcases List.mem_cons.mp ((h row).mpr hrow) with rfl | hrest
    · rfl
    · exact hagree row hrest
  have hfirst := hall first' List.mem_cons_self
  exact ⟨hfirst.symm, fun row hrow => (hall row (List.mem_cons_of_mem _ hrow)).trans hfirst.symm⟩

lemma consensusRow_congr {first first' : FinancialRow S I V T}
    {rest rest' : List (FinancialRow S I V T)} {effective : S}
    (h : ∀ row, row ∈ first :: rest ↔ row ∈ first' :: rest')
    (hkey : first.observation = first'.observation) :
    consensusRow first rest effective = consensusRow first' rest' effective := by
  have hlogical : first.logicalRevisionGroupSha256 = first'.logicalRevisionGroupSha256 :=
    congrArg (fun key => key.1.1) hkey
  have hpublished : first.sourcePublishedDate = first'.sourcePublishedDate :=
    congrArg (fun key => key.1.2) hkey
  have hobserved : first.firstObservedAt = first'.firstObservedAt := congrArg Prod.snd hkey
  have hfigure : (consensusRow first rest effective).figure =
      (consensusRow first' rest' effective).figure := by
    funext column
    change (if _ then _ else _) = (if _ then _ else _)
    by_cases hagree : ∀ row ∈ rest, row.figure column = first.figure column
    · obtain ⟨hfirst, hagree'⟩ := figures_agree_congr h hagree
      rw [if_pos hagree, if_pos hagree', hfirst]
    · have hagree' : ¬∀ row ∈ rest', row.figure column = first'.figure column := fun hall =>
        hagree (figures_agree_congr (fun row => (h row).symm) hall).2
      rw [if_neg hagree, if_neg hagree']
  have hannounced : leastOf FinancialRow.announced first rest =
      leastOf FinancialRow.announced first' rest' := leastOf_congr h
  have hflagged : leastOf FinancialRow.flagged first rest =
      leastOf FinancialRow.flagged first' rest' := leastOf_congr h
  exact FinancialRow.ext (leastOf_congr h) (leastOf_congr h) (leastOf_congr h) (leastOf_congr h)
    (leastOf_congr h) rfl rfl hobserved (leastOf_congr h) (leastOf_congr h) hlogical hpublished
    hannounced (leastOf_congr h) (congrArg OrderDual.ofDual hflagged) hfigure

/-- The order of a group does not matter. -/
lemma agreeingRow_perm (h : group.Perm group') {key : (T × T) × T}
    (hkey : ∀ member ∈ group, member.observation = key) :
    agreeingRow correction group = agreeingRow correction group' := by
  have hlength := h.length_eq
  match group, group' with
  | [], [] => rfl
  | [_], [_] => rfl
  | first :: second :: rest, first' :: second' :: rest' =>
    have hsame : ∀ row, row ∈ first :: second :: rest ↔ row ∈ first' :: second' :: rest' :=
      fun _ => h.mem_iff
    have hfirst : first.observation = first'.observation := by
      rw [hkey first List.mem_cons_self, hkey first' ((hsame first').mpr List.mem_cons_self)]
    have hrow : consensusRow first (second :: rest) = consensusRow first' (second' :: rest') :=
      funext fun effective => consensusRow_congr hsame hfirst
    simp only [agreeingRow, leastOf_congr hsame, hrow]

end Group

/-! ### Settled observations -/

section Settled
variable [LinearOrder S] [LinearOrder I] [LinearOrder T]

/-- Conflicts carry the empty session, before all others, and where a publication had been observed
before it came to a conflict, a row that was is available as soon as the publication is. -/
structure FinancialFamily.Settled (family : FinancialFamily S I V T) : Prop where
  withheld : ∀ endpoint, ∀ row ∈ family.rows endpoint, row.Conflicts →
    ∀ session, row.effectiveAvailableSession ≤ session
  earlier : ∀ endpoint key, 2 ≤ (conflictGroup (family.rows endpoint) key).length →
    isCorrection (family.rows endpoint) key = true →
      ∀ conflict ∈ conflictGroup (family.rows endpoint) key, ∃ row ∈ family.rows endpoint,
        row.publication = key.1 ∧ row.firstObservedAt < key.2 ∧
          row.effectiveAvailableSession ≤ conflict.sourceAvailableSession

/-- What a read up to a session needs to know of conflicts. -/
structure SettledAt (table : List (FinancialRow S I V T)) (session : S) : Prop where
  nodup : table.Nodup
  logical : ∀ x ∈ table, ∀ y ∈ table,
    x.logicalRevisionGroupSha256 = y.logicalRevisionGroupSha256 → x.instrumentId = y.instrumentId
  withheld : ∀ row ∈ table, row.Conflicts → row.effectiveAvailableSession ≤ session
  earlier : ∀ key, 2 ≤ (conflictGroup table key).length → isCorrection table key = true →
    ∀ conflict ∈ conflictGroup table key, conflict.sourceAvailableSession ≤ session →
      ∃ row ∈ table, row.publication = key.1 ∧ row.firstObservedAt < key.2 ∧
        row.effectiveAvailableSession ≤ session

omit [LinearOrder S] [LinearOrder I] in
lemma isCorrection_iff {table : List (FinancialRow S I V T)} {key : (T × T) × T} :
    isCorrection table key = true ↔
      ∃ row ∈ table, row.publication = key.1 ∧ row.firstObservedAt < key.2 := by
  simp [isCorrection]

omit [LinearOrder I] in
lemma mem_conflictGroup {table : List (FinancialRow S I V T)} {key : (T × T) × T}
    {row : FinancialRow S I V T} :
    row ∈ conflictGroup table key ↔ row ∈ table ∧ row.Conflicts ∧ row.observation = key := by
  rw [conflictGroup, List.mem_filter, decide_eq_true_eq]

lemma mem_agreeingRows [DecidableEq V] {table : List (FinancialRow S I V T)}
    {row : FinancialRow S I V T} :
    row ∈ agreeingRows table ↔
      ∃ key, agreeingRow (isCorrection table key) (conflictGroup table key) = some row := by
  rw [agreeingRows, List.mem_filterMap]
  constructor
  · rintro ⟨key, -, hrow⟩
    exact ⟨key, hrow⟩
  · rintro ⟨key, hrow⟩
    obtain ⟨member, hmember, -⟩ := (agreeingRow_agrees hrow).instrument
    obtain ⟨hmem, hconflicts, hkey⟩ := mem_conflictGroup.mp hmember
    refine ⟨key, List.mem_dedup.mpr (List.mem_map.mpr ⟨member, ?_, hkey⟩), hrow⟩
    exact List.mem_filter.mpr ⟨hmem, decide_eq_true hconflicts⟩

omit [LinearOrder I] in
/-- Rows of one observation are of one instrument. -/
lemma SettledAt.instrument_eq {table : List (FinancialRow S I V T)} {session : S}
    (h : SettledAt table session) {x y : FinancialRow S I V T} (hx : x ∈ table) (hy : y ∈ table)
    (hpublication : x.publication = y.publication) : x.instrumentId = y.instrumentId :=
  h.logical x hx y hy (congrArg Prod.fst hpublication)

section Congr
variable [DecidableEq V] {xs ys : List (FinancialRow S I V T)} {session : S} {instrumentId : I}
variable (hxs : SettledAt xs session) (hys : SettledAt ys session)
  (hsame : ∀ row : FinancialRow S I V T, row.instrumentId = instrumentId →
    row.effectiveAvailableSession ≤ session → (row ∈ xs ↔ row ∈ ys))
include hxs hsame

omit [LinearOrder I] [DecidableEq V] in
/-- A correction of one table is one of the other. -/
lemma isCorrection_congr {key : (T × T) × T} {conflict : FinancialRow S I V T}
    (hlength : 2 ≤ (conflictGroup xs key).length) (hconflict : conflict ∈ conflictGroup xs key)
    (hinstrument : conflict.instrumentId = instrumentId)
    (havailable : conflict.sourceAvailableSession ≤ session)
    (h : isCorrection xs key = true) : isCorrection ys key = true := by
  obtain ⟨row, hrow, hpublication, hobserved, hvisible⟩ :=
    hxs.earlier key hlength h conflict hconflict havailable
  obtain ⟨hmem, -, hkey⟩ := mem_conflictGroup.mp hconflict
  have hrowInstrument : row.instrumentId = instrumentId := by
    rw [← hinstrument]
    exact hxs.instrument_eq hrow hmem (hpublication.trans (congrArg Prod.fst hkey).symm)
  exact isCorrection_iff.mpr ⟨row, (hsame row hrowInstrument hvisible).mp hrow, hpublication,
    hobserved⟩

include hys

omit [LinearOrder I] [DecidableEq V] in
lemma mem_conflictGroup_congr {key : (T × T) × T} {member : FinancialRow S I V T}
    (hmember : member ∈ conflictGroup xs key) (hinstrument : member.instrumentId = instrumentId)
    (row : FinancialRow S I V T) : row ∈ conflictGroup xs key ↔ row ∈ conflictGroup ys key := by
  obtain ⟨hmem, hconflicts, hkey⟩ := mem_conflictGroup.mp hmember
  have hother : member ∈ ys := (hsame member hinstrument (hxs.withheld member hmem hconflicts)).mp hmem
  rw [mem_conflictGroup, mem_conflictGroup]
  constructor
  · rintro ⟨hrow, hrowConflicts, hrowKey⟩
    have hpublication : row.publication = member.publication :=
      congrArg Prod.fst (hrowKey.trans hkey.symm)
    exact ⟨(hsame row ((hxs.instrument_eq hrow hmem hpublication).trans hinstrument)
      (hxs.withheld row hrow hrowConflicts)).mp hrow, hrowConflicts, hrowKey⟩
  · rintro ⟨hrow, hrowConflicts, hrowKey⟩
    have hpublication : row.publication = member.publication :=
      congrArg Prod.fst (hrowKey.trans hkey.symm)
    exact ⟨(hsame row ((hys.instrument_eq hrow hother hpublication).trans hinstrument)
      (hys.withheld row hrow hrowConflicts)).mpr hrow, hrowConflicts, hrowKey⟩

/-- Tables that say the same about an instrument up to a session agree on the same figures of
it. -/
lemma agreeingRows_congr {row : FinancialRow S I V T} (hrow : row ∈ agreeingRows xs)
    (hinstrument : row.instrumentId = instrumentId)
    (hvisible : row.effectiveAvailableSession ≤ session) : row ∈ agreeingRows ys := by
  obtain ⟨key, hkey⟩ := mem_agreeingRows.mp hrow
  have hagrees := agreeingRow_agrees hkey
  obtain ⟨member, hmember, hmemberInstrument⟩ := hagrees.instrument
  have hmembers := mem_conflictGroup_congr hxs hys hsame hmember
    (hmemberInstrument.trans hinstrument)
  have hperm : (conflictGroup xs key).Perm (conflictGroup ys key) :=
    (List.perm_ext_iff_of_nodup (hxs.nodup.filter _) (hys.nodup.filter _)).mpr hmembers
  obtain ⟨conflict, hconflict, havailable⟩ := hagrees.available
  have hconflictInstrument : conflict.instrumentId = instrumentId := by
    rw [← hinstrument, ← hmemberInstrument]
    refine hxs.instrument_eq (mem_conflictGroup.mp hconflict).1 (mem_conflictGroup.mp hmember).1 ?_
    exact congrArg Prod.fst
      ((mem_conflictGroup.mp hconflict).2.2.trans (mem_conflictGroup.mp hmember).2.2.symm)
  have hreached : conflict.sourceAvailableSession ≤ session :=
    havailable.trans (WithBot.coe_le_coe.mpr hvisible)
  have hcorrection : isCorrection xs key = isCorrection ys key := by
    rw [Bool.eq_iff_iff]
    constructor
    · exact isCorrection_congr hxs hsame hagrees.several hconflict hconflictInstrument hreached
    · exact isCorrection_congr hys (fun row hrow hle => (hsame row hrow hle).symm)
        (hperm.length_eq ▸ hagrees.several) ((hmembers conflict).mp hconflict) hconflictInstrument
        hreached
  refine mem_agreeingRows.mpr ⟨key, ?_⟩
  rw [← hcorrection, ← hkey]
  exact (agreeingRow_perm hperm fun other hother => (mem_conflictGroup.mp hother).2.2).symm

end Congr

/-! ### Reads of settled families -/

section Reads
variable {family family' : FinancialFamily S I V T} {endpoint : Endpoint}

omit [LinearOrder I] in
lemma FinancialFamily.Settled.settledAt (h : family.Settled) (endpoint : Endpoint) (session : S) :
    SettledAt (family.rows endpoint) session := by
  refine ⟨(family.distinct endpoint).of_map, family.logical endpoint,
    fun row hrow hconflicts => h.withheld endpoint row hrow hconflicts session, ?_⟩
  intro key hlength hcorrection conflict hconflict havailable
  obtain ⟨row, hrow, hpublication, hobserved, hvisible⟩ :=
    h.earlier endpoint key hlength hcorrection conflict hconflict
  exact ⟨row, hrow, hpublication, hobserved,
    WithBot.coe_le_coe.mp (hvisible.trans havailable)⟩

/-- What is read is settled as well: all of it is available by the last session. -/
lemma FinancialFamily.Settled.settledAt_filter (h : family.Settled) (endpoint : Endpoint)
    (instrumentIds : List I) (through : S) :
    SettledAt ((family.rows endpoint).filter fun row =>
      row.instrumentId ∈ instrumentIds ∧ row.effectiveAvailableSession ≤ through) through := by
  have hsettled := h.settledAt endpoint through
  refine ⟨hsettled.nodup.filter _, fun x hx y hy => ?_, fun row hrow => ?_, ?_⟩
  · exact hsettled.logical x (List.mem_of_mem_filter hx) y (List.mem_of_mem_filter hy)
  · exact hsettled.withheld row (List.mem_of_mem_filter hrow)
  · intro key _ hcorrection _ _ _
    obtain ⟨row, hrow, hpublication, hobserved⟩ := isCorrection_iff.mp hcorrection
    have hvisible := of_decide_eq_true (List.mem_filter.mp hrow).2
    exact ⟨row, hrow, hpublication, hobserved, hvisible.2⟩

variable [DecidableEq V]

/-- The rows of a family, with those on which conflicts agree. -/
def FinancialFamily.projectedRows (family : FinancialFamily S I V T) (endpoint : Endpoint) :
    List (FinancialRow S I V T) :=
  family.rows endpoint ++ agreeingRows (family.rows endpoint)

/-- A read projects the rows that it filters as the family projects all of them. -/
lemma FinancialFamily.Settled.mem_projectAgreeing (h : family.Settled) {instrumentIds : List I}
    {through : S} {row : FinancialRow S I V T} :
    row ∈ projectAgreeingFinancialValues ((family.rows endpoint).filter fun row =>
        row.instrumentId ∈ instrumentIds ∧ row.effectiveAvailableSession ≤ through) through ↔
      row ∈ family.projectedRows endpoint ∧ row.instrumentId ∈ instrumentIds ∧
        row.effectiveAvailableSession ≤ through := by
  have hrows := h.settledAt endpoint through
  have hread := h.settledAt_filter endpoint instrumentIds through
  have hsame : ∀ instrumentId ∈ instrumentIds, ∀ row : FinancialRow S I V T,
      row.instrumentId = instrumentId → row.effectiveAvailableSession ≤ through →
        (row ∈ family.rows endpoint ↔ row ∈ (family.rows endpoint).filter fun row =>
          row.instrumentId ∈ instrumentIds ∧ row.effectiveAvailableSession ≤ through) := by
    intro instrumentId hmem row hinstrument hvisible
    rw [List.mem_filter, decide_eq_true_eq]
    exact ⟨fun hrow => ⟨hrow, hinstrument ▸ hmem, hvisible⟩, And.left⟩
  rw [projectAgreeingFinancialValues, FinancialFamily.projectedRows, List.mem_append,
    List.mem_append, List.mem_filter, List.mem_filter, decide_eq_true_eq, decide_eq_true_eq]
  constructor
  · rintro (⟨hrow, hmem, hvisible⟩ | ⟨hrow, hvisible⟩)
    · exact ⟨.inl hrow, hmem, hvisible⟩
    · obtain ⟨key, hkey⟩ := mem_agreeingRows.mp hrow
      obtain ⟨member, hmember, hinstrument⟩ := (agreeingRow_agrees hkey).instrument
      have hmem : row.instrumentId ∈ instrumentIds := by
        rw [← hinstrument]
        exact (of_decide_eq_true (List.mem_filter.mp (mem_conflictGroup.mp hmember).1).2).1
      exact ⟨.inr (agreeingRows_congr hread hrows
        (fun other hother hle => (hsame _ hmem other hother hle).symm) hrow rfl hvisible), hmem,
        hvisible⟩
  · rintro ⟨hrow | hrow, hmem, hvisible⟩
    · exact .inl ⟨hrow, hmem, hvisible⟩
    · exact .inr ⟨agreeingRows_congr hrows hread (hsame _ hmem) hrow rfl hvisible, hvisible⟩

/-- An agreeing row bears the digest of one of its conflicts. -/
lemma digest_of_mem_agreeingRows {row : FinancialRow S I V T}
    (hrow : row ∈ agreeingRows (family.rows endpoint)) :
    ∃ key, agreeingRow (isCorrection (family.rows endpoint) key)
        (conflictGroup (family.rows endpoint) key) = some row ∧
      ∃ member ∈ family.rows endpoint, member.Conflicts ∧ member.observation = key ∧
        member.sourceRowSha256 = row.sourceRowSha256 := by
  obtain ⟨key, hkey⟩ := mem_agreeingRows.mp hrow
  obtain ⟨member, hmember, hdigest⟩ := (agreeingRow_agrees hkey).digest
  obtain ⟨hmem, hconflicts, hobservation⟩ := mem_conflictGroup.mp hmember
  exact ⟨key, hkey, member, hmem, hconflicts, hobservation, hdigest⟩

lemma FinancialFamily.distinguished (family : FinancialFamily S I V T) (endpoint : Endpoint) :
    Distinguished (family.projectedRows endpoint) := by
  have hinj := List.inj_on_of_nodup_map (family.distinct endpoint)
  have hapart : ∀ x ∈ family.rows endpoint, x.availabilityStatus = "available" →
      ∀ y ∈ agreeingRows (family.rows endpoint), x.sourceRowSha256 ≠ y.sourceRowSha256 := by
    intro x hx hxa y hy hsha
    obtain ⟨key, -, member, hmember, hconflicts, -, hdigest⟩ := digest_of_mem_agreeingRows hy
    rw [hinj hx hmember (hsha.trans hdigest.symm), hconflicts.1] at hxa
    exact absurd hxa (by decide)
  intro x hx y hy hxa hya hsha
  rcases List.mem_append.mp hx with hx | hx <;> rcases List.mem_append.mp hy with hy | hy
  · exact hinj hx hy hsha
  · exact absurd hsha (hapart x hx hxa y hy)
  · exact absurd hsha.symm (hapart y hy hya x hx)
  · obtain ⟨key, hkey, member, hmember, -, hobservation, hdigest⟩ := digest_of_mem_agreeingRows hx
    obtain ⟨key', hkey', member', hmember', -, hobservation', hdigest'⟩ :=
      digest_of_mem_agreeingRows hy
    have hsame := hinj hmember hmember' (hdigest.trans (hsha.trans hdigest'.symm))
    rw [← hobservation, hsame, hobservation', hkey'] at hkey
    exact (Option.some.inj hkey).symm

/-- The figures of a family, agreed ones included, are those of its rows. -/
lemma figure_of_projectedRows {row : FinancialRow S I V T}
    (hrow : row ∈ family.projectedRows endpoint) {column : String} {figure : V}
    (hfigure : row.figure column = some figure) :
    ∃ other ∈ family.rows endpoint, other.figure column = some figure := by
  rcases List.mem_append.mp hrow with hrow | hrow
  · exact ⟨row, hrow, hfigure⟩
  · obtain ⟨key, hkey⟩ := mem_agreeingRows.mp hrow
    obtain ⟨member, hmember, heq⟩ := (agreeingRow_agrees hkey).figure column figure hfigure
    exact ⟨member, (mem_conflictGroup.mp hmember).1, heq⟩

end Reads

end Settled

end ThesisTrace.FinancialSeries
