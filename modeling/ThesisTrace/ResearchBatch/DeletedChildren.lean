import Mathlib.Data.List.Nodup
import ThesisTrace.ResearchBatch.Lifecycle

/-!
# Deleted children

A child Run may be deleted once its item has an outcome. Every transaction of the Batch but one
reads the outcome then, and goes on as if the Run were still there; the completion of an attempt
looks up the Runs of all items.
-/

namespace ThesisTrace.ResearchBatch
open Transaction LabelledTransition
open ResearchRun (AttemptId PinId Timestamp RunStatus updateRows)

/-! ### Items -/

/-- An item has an outcome exactly when its Run is terminal or deleted, and they agree. -/
def Item.Coherent (item : Item) : Prop :=
  match item.outcome with
  | none => item.runDeleted = false ∧ ∃ run, item.run = some run ∧ run.status.terminal = false
  | some outcome =>
    if item.runDeleted then item.run = none
    else item.run.map ChildRun.status = some outcome.runStatus

/-- What is left of an item when the Run of a finished one is not looked at. -/
def Item.forgetRun (item : Item) : Item :=
  if item.incomplete then item else { item with runDeleted := false, run := none }

section Items

variable {item : Item} {items items' : List Item}

@[simp] lemma forgetRun_outcome : item.forgetRun.outcome = item.outcome := by
  unfold Item.forgetRun
  split <;> rfl

@[simp] lemma forgetRun_ordinal : item.forgetRun.ordinal = item.ordinal := by
  unfold Item.forgetRun
  split <;> rfl

@[simp] lemma forgetRun_incomplete : item.forgetRun.incomplete = item.incomplete := by
  simp [Item.incomplete]

lemma forgetRun_of_incomplete (h : item.incomplete = true) : item.forgetRun = item :=
  if_pos h

lemma forgetRun_of_complete (h : item.incomplete = false) :
    item.forgetRun = { item with runDeleted := false, run := none } :=
  if_neg (by simp [h])

@[simp] lemma forgetRun_forgetRun : item.forgetRun.forgetRun = item.forgetRun := by
  cases h : item.incomplete with
  | true => rw [forgetRun_of_incomplete h, forgetRun_of_incomplete h]
  | false => rw [forgetRun_of_complete (by simp [h]), forgetRun_of_complete h]

lemma incompleteItems_forgetRun :
    incompleteItems (items.map Item.forgetRun) = incompleteItems items := by
  induction items with
  | nil => rfl
  | cons item items ih =>
    cases h : item.incomplete with
    | true => simp_all [incompleteItems, forgetRun_of_incomplete h]
    | false => simp_all [incompleteItems]

lemma outcomes_forgetRun : outcomes (items.map Item.forgetRun) = outcomes items := by
  simp [outcomes, Function.comp_def]

lemma updateIncomplete_forgetRun (selected : Item → Bool) (change : Item → Item) :
    (updateIncomplete (items.map Item.forgetRun) selected change).map Item.forgetRun =
      (updateIncomplete items selected change).map Item.forgetRun := by
  simp only [updateIncomplete, updateRows, List.map_map]
  apply List.map_congr_left
  intro item _
  cases h : item.incomplete with
  | true => simp [h, forgetRun_of_incomplete h]
  | false => simp [h]

/-- A change of an incomplete item that is its own in the same place. -/
structure Item.Keeps (item changed : Item) : Prop where
  coherent : changed.Coherent
  kept : changed.runDeleted = false
  ordinal : changed.ordinal = item.ordinal

/-- The items of an execution and those of the execution without its deletions. -/
structure Alike (items items' : List Item) : Prop where
  same : items.map Item.forgetRun = items'.map Item.forgetRun
  ordinals : (items.map Item.ordinal).Nodup
  coherent : ∀ item ∈ items, item.Coherent
  kept : ∀ item ∈ items', item.Coherent ∧ item.runDeleted = false

namespace Alike

lemma incompleteItems (h : Alike items items') : incompleteItems items = incompleteItems items' := by
  rw [← incompleteItems_forgetRun, h.same, incompleteItems_forgetRun]

lemma outcomes (h : Alike items items') : outcomes items = outcomes items' := by
  rw [← outcomes_forgetRun, h.same, outcomes_forgetRun]

lemma length (h : Alike items items') : items.length = items'.length := by
  simpa using congrArg List.length h.same

lemma mem_of_incomplete (h : Alike items items') (hmem : item ∈ items')
    (hincomplete : item.incomplete = true) : item ∈ items := by
  have hfilter : item ∈ ResearchBatch.incompleteItems items' :=
    List.mem_filter.mpr ⟨hmem, hincomplete⟩
  rw [← h.incompleteItems] at hfilter
  exact (List.mem_filter.mp hfilter).1

lemma incompleteItem (h : Alike items items') (ordinal : Nat) :
    incompleteItem items ordinal = incompleteItem items' ordinal := by
  rw [ResearchBatch.incompleteItem, h.incompleteItems, ResearchBatch.incompleteItem]

lemma any_ordinal (h : Alike items items') (ordinal : Nat) :
    (items.any fun item => item.ordinal = ordinal) =
      items'.any fun item => item.ordinal = ordinal := by
  have hsame := congrArg (List.any · fun item => decide (item.ordinal = ordinal)) h.same
  simpa only [List.any_map, Function.comp_def, forgetRun_ordinal] using hsame

lemma terminalStatusFromItems (h : Alike items items') :
    terminalStatusFromItems items = terminalStatusFromItems items' := by
  rw [ResearchBatch.terminalStatusFromItems, h.outcomes, h.length,
    ResearchBatch.terminalStatusFromItems]

/-- An update of incomplete items that leaves them coherent. -/
lemma updateIncomplete (h : Alike items items') (selected : Item → Bool) {change : Item → Item}
    (hchange : ∀ item ∈ items, item.incomplete = true → item.Keeps (change item)) :
    Alike (updateIncomplete items selected change) (updateIncomplete items' selected change) where
  same := by
    rw [← updateIncomplete_forgetRun, h.same, updateIncomplete_forgetRun]
  ordinals := by
    have hordinals : (ResearchBatch.updateIncomplete items selected change).map Item.ordinal =
        items.map Item.ordinal := by
      rw [ResearchBatch.updateIncomplete, updateRows, List.map_map]
      apply List.map_congr_left
      intro item hitem
      rw [Function.comp_apply]
      split
      · next hselected => exact (hchange item hitem (Bool.and_elim_left hselected)).ordinal
      · rfl
    rw [hordinals]
    exact h.ordinals
  coherent item hitem := by
    obtain ⟨old, hold, rfl⟩ := List.mem_map.mp hitem
    split
    · next hselected => exact (hchange old hold (Bool.and_elim_left hselected)).coherent
    · exact h.coherent old hold
  kept item hitem := by
    obtain ⟨old, hold, rfl⟩ := List.mem_map.mp hitem
    split
    · next hselected =>
      have hincomplete := Bool.and_elim_left hselected
      have hkeeps := hchange old (h.mem_of_incomplete hold hincomplete) hincomplete
      exact ⟨hkeeps.coherent, hkeeps.kept⟩
    · exact h.kept old hold

end Alike

/-- An item without an outcome has a Run that is not terminal. -/
lemma Item.Coherent.run_of_incomplete (h : item.Coherent) (hincomplete : item.incomplete = true) :
    item.runDeleted = false ∧ ∃ run, item.run = some run ∧ run.status.terminal = false := by
  rw [Item.incomplete, Option.isNone_iff_eq_none] at hincomplete
  rw [Item.Coherent, hincomplete] at h
  exact h

lemma keeps_mapRun (h : item.Coherent) (hincomplete : item.incomplete = true)
    {change : ChildRun → ChildRun} (hchange : ∀ run, (change run).status.terminal = false) :
    item.Keeps (item.mapRun change) := by
  obtain ⟨hkept, run, hrun, -⟩ := h.run_of_incomplete hincomplete
  rw [Item.incomplete, Option.isNone_iff_eq_none] at hincomplete
  refine ⟨?_, hkept, rfl⟩
  rw [Item.Coherent, Item.mapRun, hincomplete, hrun]
  exact ⟨hkept, _, rfl, hchange run⟩

lemma keeps_finish (h : item.Coherent) (hincomplete : item.incomplete = true)
    (outcome : Outcome) (diagnostic : Option ResearchBatchDiagnostic)
    (failureReason : Option String) :
    item.Keeps (item.finish outcome diagnostic failureReason) := by
  obtain ⟨hkept, run, hrun, -⟩ := h.run_of_incomplete hincomplete
  refine ⟨?_, hkept, rfl⟩
  simp [Item.Coherent, Item.finish, hkept, hrun]

lemma Item.Coherent.run_of_deleted (h : item.Coherent) (hdeleted : item.runDeleted = true) :
    item.run = none := by
  unfold Item.Coherent at h
  split at h
  · exact absurd (h.1.symm.trans hdeleted) Bool.false_ne_true
  · rwa [if_pos hdeleted] at h

lemma Item.Coherent.run_of_kept (h : item.Coherent) (hkept : item.runDeleted = false) :
    ∃ run, item.run = some run := by
  unfold Item.Coherent at h
  split at h
  · obtain ⟨-, run, hrun, -⟩ := h
    exact ⟨run, hrun⟩
  · rw [hkept, if_neg Bool.false_ne_true, Option.map_eq_some_iff] at h
    obtain ⟨run, hrun, -⟩ := h
    exact ⟨run, hrun⟩

/-- The Run of an item with an outcome is terminal, if it is there. -/
lemma Item.Coherent.terminal_of_complete (h : item.Coherent) (hcomplete : item.incomplete = false)
    {run : ChildRun} (hrun : item.run = some run) : run.status.terminal = true := by
  rw [Item.incomplete, Option.isNone_eq_false_iff, Option.isSome_iff_exists] at hcomplete
  obtain ⟨outcome, houtcome⟩ := hcomplete
  rw [Item.Coherent, houtcome, hrun] at h
  dsimp only at h
  split at h
  · cases h
  · have hstatus : run.status = outcome.runStatus := Option.some.inj h
    rw [hstatus]
    cases outcome <;> rfl

lemma find_forgetRun (ordinal : Nat) :
    (items.map Item.forgetRun).find? (fun item => item.ordinal = ordinal) =
      (items.find? fun item => item.ordinal = ordinal).map Item.forgetRun := by
  have hsame : (fun item : Item => decide (item.ordinal = ordinal)) ∘ Item.forgetRun =
      fun item => decide (item.ordinal = ordinal) :=
    funext fun item => by rw [Function.comp_apply, forgetRun_ordinal]
  rw [List.find?_map, hsame]

/-! ### Updates of the items -/

lemma agrees_begin (h : Alike items items') :
    Agrees Alike (beginBatchOwnedExecutions items) (beginBatchOwnedExecutions items') := by
  unfold beginBatchOwnedExecutions
  rw [h.incompleteItems]
  refine .step fun _ _ => .commit (h.updateIncomplete _ fun item hitem hincomplete => ?_)
  exact keeps_mapRun (h.coherent item hitem) hincomplete fun _ => rfl

lemma agrees_reset (h : Alike items items') :
    Agrees Alike (resetIncompleteBatchOwnedExecutions items)
      (resetIncompleteBatchOwnedExecutions items') := by
  unfold resetIncompleteBatchOwnedExecutions
  rw [h.incompleteItems]
  refine .step fun _ _ => .commit (h.updateIncomplete _ fun item hitem hincomplete => ?_)
  exact keeps_mapRun (h.coherent item hitem) hincomplete fun _ => rfl

lemma agrees_cancelItems (h : Alike items items') :
    Agrees Alike (cancelIncompleteItems items) (cancelIncompleteItems items') := by
  unfold cancelIncompleteItems
  rw [h.incompleteItems]
  refine .step fun _ _ => .commit (h.updateIncomplete _ fun item hitem hincomplete => ?_)
  obtain ⟨hkept, run, hrun, -⟩ := (h.coherent item hitem).run_of_incomplete hincomplete
  refine ⟨?_, hkept, rfl⟩
  simp [Item.Coherent, Item.finish, Item.mapRun, hkept, hrun]

end Items

/-! ### The transactions that do not look at a finished Run -/

/-- The states of an execution and of the execution without its deletions. -/
inductive Same : Batch → Batch → Prop
  | mk (s : Batch) (items : List Item) (h : Alike s.items items) : Same s { s with items := items }

section Transactions

variable {s s' : Batch} {claim : ResearchBatchClaim}

lemma Same.alike (h : Same s s') : Alike s.items s'.items := by
  cases h with
  | mk items hitems => exact hitems

lemma agrees_releasePin (h : Same s s') (pinId ownerId : Nat) :
    Agrees Same (releasePin s pinId ownerId) (releasePin s' pinId ownerId) := by
  cases h with
  | mk items h => exact .step fun _ _ => .commit (.mk _ items h)

lemma agrees_leaveRunning (h : Same s s') (fence : Nat) (status : BatchStatus) :
    Agrees Same (leaveRunning s fence status) (leaveRunning s' fence status) := by
  cases h with
  | mk items h => exact .step fun _ _ => .commit (.mk _ items h)

lemma agrees_failRecoveredItem (diagnostic : ResearchBatchDiagnostic) (h : Same s s')
    (ordinal : Nat) :
    Agrees Same (failRecoveredItem diagnostic s ordinal)
      (failRecoveredItem diagnostic s' ordinal) := by
  cases h with
  | mk items h =>
    unfold failRecoveredItem
    rw [← h.incompleteItem]
    refine .step fun item _ => .step fun _ _ => .step fun _ _ => .commit (.mk _ _ ?_)
    apply h.updateIncomplete
    intro item hitem hincomplete
    exact keeps_finish (h.coherent item hitem) hincomplete _ _ _

lemma agrees_failRecoveredItems (diagnostic : ResearchBatchDiagnostic) (h : Same s s')
    (items : List Item) :
    Agrees Same (failRecoveredItems diagnostic s items) (failRecoveredItems diagnostic s' items) :=
  .foldlM (fun _ _ ordinal h => agrees_failRecoveredItem diagnostic h ordinal) _ h

lemma agrees_heartbeatPin (h : Same s s') (pinId ownerId leaseSeconds : Nat) :
    Agrees Same (heartbeatPin s pinId ownerId leaseSeconds)
      (heartbeatPin s' pinId ownerId leaseSeconds) := by
  cases h with
  | mk items h => exact .step fun _ _ => .commit (.mk _ items h)

lemma agrees_activateStartingClaim (h : Same s s') (childPid : Nat) :
    Agrees Same (activateStartingClaim s claim childPid)
      (activateStartingClaim s' claim childPid) := by
  cases h with
  | mk items h =>
    exact .step fun starting _ => .step fun _ _ => .step fun _ _ => .commit (.mk _ items h)

lemma agrees_recordChildExit (h : Same s s') (childPid : Nat) (exitCode : Int)
    (acknowledged : Bool) :
    Agrees Same (recordChildExit s claim childPid exitCode acknowledged)
      (recordChildExit s' claim childPid exitCode acknowledged) := by
  cases h with
  | mk items h =>
    unfold recordChildExit
    dsimp only
    split
    · exact .commit (.mk _ items h)
    · split
      · exact .commit (.mk _ items h)
      · split
        · exact .commit (.mk _ items h)
        · exact .rollback _ _

lemma agrees_heartbeatClaim (h : Same s s') (leaseSeconds : Nat) :
    Agrees Same (heartbeatClaim s claim leaseSeconds) (heartbeatClaim s' claim leaseSeconds) := by
  cases h with
  | mk items h =>
    unfold heartbeatClaim
    dsimp only
    split
    · apply agrees_heartbeatPin
      exact .mk _ items h
    · split
      · apply agrees_heartbeatPin
        exact .mk _ items h
      · exact .commit (.mk _ items h)

lemma agrees_authorizeLiveProgress (h : Same s s') :
    authorizeLiveProgress s claim = authorizeLiveProgress s' claim := by
  cases h with
  | mk items h => rfl

lemma agrees_insertTaskAttempt (h : Same s s') (role : TaskRole) (itemOrdinal : Option Nat) :
    Agrees Same (insertTaskAttempt s claim role itemOrdinal)
      (insertTaskAttempt s' claim role itemOrdinal) := by
  cases h with
  | mk items h => exact .step fun _ _ => .commit (.mk _ items h)

lemma agrees_ensureFactorTaskAttempt (h : Same s s') (itemOrdinal : Nat) :
    Agrees Same (ensureFactorTaskAttempt s claim itemOrdinal)
      (ensureFactorTaskAttempt s' claim itemOrdinal) := by
  cases h with
  | mk items h =>
    unfold ensureFactorTaskAttempt
    dsimp only
    split
    · exact .step fun _ _ => .commit (.mk _ items h)
    · rw [← h.any_ordinal]
      exact .step fun _ _ => agrees_insertTaskAttempt (.mk _ items h) _ _

lemma agrees_ensureStrategyTaskAttempt (h : Same s s') (itemOrdinal : Option Nat) :
    Agrees Same (ensureStrategyTaskAttempt s claim itemOrdinal)
      (ensureStrategyTaskAttempt s' claim itemOrdinal) := by
  cases h with
  | mk items h =>
    unfold ensureStrategyTaskAttempt
    dsimp only
    generalize s.taskAttempts.find? _ = running
    cases running with
    | some task => exact .step fun _ _ => .commit (.mk _ items h)
    | none =>
      simp only [← h.incompleteItem]
      exact .step fun _ _ => agrees_insertTaskAttempt (.mk _ items h) _ _

lemma Same.kind (h : Same s s') : s'.kind = s.kind := by
  cases h with
  | mk items h => rfl

lemma agrees_ensureTaskAttempt (h : Same s s') (ordinal : Nat) :
    Agrees Same (ensureTaskAttempt s claim ordinal) (ensureTaskAttempt s' claim ordinal) := by
  unfold ensureTaskAttempt
  rw [h.kind]
  split
  · exact agrees_ensureFactorTaskAttempt h ordinal
  · exact agrees_ensureStrategyTaskAttempt h _

lemma agrees_startItem (h : Same s s') (ordinal : Nat) :
    Agrees Same (startItem s claim ordinal) (startItem s' claim ordinal) := by
  refine (agrees_ensureTaskAttempt h ordinal).bind fun t t' _ ht => ?_
  rw [agrees_authorizeLiveProgress ht]
  exact .step fun _ _ => .commit ht

lemma agrees_ensureSharedTaskAttempt (h : Same s s') (reused : Bool) :
    Agrees Same (ensureSharedTaskAttempt s claim reused)
      (ensureSharedTaskAttempt s' claim reused) := by
  unfold ensureSharedTaskAttempt
  rw [h.kind]
  split
  · exact agrees_ensureStrategyTaskAttempt h _
  · exact .commit h

lemma agrees_startSharedAlphaFactor (h : Same s s') (reused : Bool) :
    Agrees Same (startSharedAlphaFactor s claim reused)
      (startSharedAlphaFactor s' claim reused) := by
  refine (agrees_ensureSharedTaskAttempt h reused).bind fun t t' _ ht => ?_
  rw [agrees_authorizeLiveProgress ht]
  refine .step fun _ _ => ?_
  cases ht with
  | mk items ht =>
    dsimp only
    split
    · exact .commit (.mk _ items ht)
    · exact .step fun _ _ => .commit (.mk _ items ht)

lemma agrees_acknowledgePrivateArtifact (h : Same s s') (reused : Bool) :
    Agrees Same (acknowledgePrivateArtifact s claim reused)
      (acknowledgePrivateArtifact s' claim reused) := by
  cases h with
  | mk items h =>
    refine .step fun _ _ => ?_
    dsimp only
    split
    · exact .step fun _ _ => .commit (.mk _ items h)
    · exact .step fun _ _ => .step fun _ _ => .step fun _ _ => .commit (.mk _ items h)

lemma agrees_failSharedAlphaFactor (h : Same s s') :
    Agrees Same (failSharedAlphaFactor s claim) (failSharedAlphaFactor s' claim) := by
  cases h with
  | mk items h =>
    exact .step fun _ _ => .step fun _ _ => .step fun _ _ => .commit (.mk _ items h)

lemma agrees_completeItem (h : Same s s') (ordinal : Nat) (outcome : Outcome)
    (publicReason : Option String) (diagnostic : Option ResearchBatchDiagnostic) :
    Agrees Same (completeItem s claim ordinal outcome publicReason diagnostic)
      (completeItem s' claim ordinal outcome publicReason diagnostic) := by
  cases h with
  | mk items h =>
    unfold completeItem
    rw [← h.incompleteItem]
    refine .step fun _ _ => .step fun tasks _ => .step fun _ _ => .step fun _ _ =>
      .commit (.mk _ _ ?_)
    apply h.updateIncomplete
    intro item hitem hincomplete
    exact keeps_finish (h.coherent item hitem) hincomplete _ _ _

/-- A worker finds the same row of a child, or a terminal one that may be gone. -/
lemma claimedRun_cases (h : Same s s') (claim : ResearchBatchClaim) (ordinal : Nat) :
    claimedRun s claim ordinal = claimedRun s' claim ordinal ∨
      ∃ claimed row run, claimedRun s claim ordinal = some (claimed, row) ∧
        claimedRun s' claim ordinal = some (claimed, some run) ∧ run.status.terminal = true ∧
        ∀ other, row = some other → other.status.terminal = true := by
  have hfind : (s.items.find? fun item => item.ordinal = ordinal).map Item.forgetRun =
      (s'.items.find? fun item => item.ordinal = ordinal).map Item.forgetRun := by
    rw [← find_forgetRun, h.alike.same, find_forgetRun]
  unfold claimedRun
  cases claim.items.find? fun item => item.ordinal = ordinal with
  | none => exact .inl rfl
  | some claimed =>
    cases hitem : s.items.find? fun item => item.ordinal = ordinal with
    | none =>
      rw [hitem, Option.map_none, eq_comm, Option.map_eq_none_iff] at hfind
      rw [hfind]
      exact .inl rfl
    | some item =>
      rw [hitem, Option.map_some, eq_comm, Option.map_eq_some_iff] at hfind
      obtain ⟨item', hitem', hforget⟩ := hfind
      have hcoherent := h.alike.coherent item (List.mem_of_find?_eq_some hitem)
      obtain ⟨hcoherent', hkept⟩ := h.alike.kept item' (List.mem_of_find?_eq_some hitem')
      have hincomplete : item'.incomplete = item.incomplete := by
        rw [← forgetRun_incomplete, hforget, forgetRun_incomplete]
      rw [hitem']
      cases hitem : item.incomplete with
      | true =>
        rw [forgetRun_of_incomplete hitem, forgetRun_of_incomplete (hincomplete.trans hitem)] at hforget
        rw [hforget]
        exact .inl rfl
      | false =>
        right
        obtain ⟨run, hrun⟩ := hcoherent'.run_of_kept hkept
        refine ⟨claimed, item.run, run, rfl, by rw [← hrun]; rfl, ?_, ?_⟩
        · exact hcoherent'.terminal_of_complete (hincomplete.trans hitem) hrun
        · exact fun other hother => hcoherent.terminal_of_complete hitem hother

lemma Same.authorizeClaim (h : Same s s') : authorizeClaim s' claim = authorizeClaim s claim := by
  cases h with
  | mk items h => rfl

lemma agrees_completeBatchOwnedItem (h : Same s s') (ordinal : Nat) :
    Agrees Same (completeBatchOwnedItem s claim ordinal)
      (completeBatchOwnedItem s' claim ordinal) := by
  unfold completeBatchOwnedItem
  rw [h.authorizeClaim]
  refine .step fun _ _ => ?_
  rcases claimedRun_cases h claim ordinal with heq | ⟨claimed, row, run, hrow, hrow', hrun, hother⟩
  · rw [heq]
    exact .step fun _ _ => .step fun _ _ => agrees_completeItem h _ _ _ _
  · rw [hrow, hrow']
    have hnot : ¬(row.any fun run => run.status = .running ∧ run.executionFence = claimed.fence) := by
      rw [Option.any_eq_true]
      rintro ⟨other, hmem, hrunning⟩
      have hterminal := hother other hmem
      rw [(of_decide_eq_true hrunning).1] at hterminal
      cases hterminal
    have hnot' : ¬((some run).any fun run =>
        run.status = .running ∧ run.executionFence = claimed.fence) := by
      intro hrunning
      rw [(of_decide_eq_true hrunning).1] at hrun
      cases hrun
    simp only [found, ok_bind, require, hnot, hnot']
    exact .rollback _ _

/-- A rollback leaves the rows as they were. -/
lemma Same.after {x x' : Except Refusal Batch} (h : Same s s') (hagrees : Agrees Same x x') :
    Same (x.toOption.getD s) (x'.toOption.getD s') := by
  cases hagrees with
  | commit ht => exact ht
  | rollback e e' => exact h

/-- A failure of an item whose Run is terminal changes nothing, whether the Run is there or not. -/
lemma same_failBatchOwnedItem (h : Same s s') (ordinal : Nat) (publicReason : String)
    (diagnostic : Option ResearchBatchDiagnostic) :
    Same ((failBatchOwnedItem s claim ordinal publicReason diagnostic).toOption.getD s)
      ((failBatchOwnedItem s' claim ordinal publicReason diagnostic).toOption.getD s') := by
  rcases claimedRun_cases h claim ordinal with heq | ⟨claimed, row, run, hrow, hrow', hrun, hother⟩
  · apply h.after
    unfold failBatchOwnedItem
    rw [h.authorizeClaim, heq]
    refine .step fun _ _ => .step fun found _ => .step fun run _ => .step fun _ _ => ?_
    split
    · exact .commit h
    · exact .step fun _ _ => agrees_completeItem h _ _ _ _
  · have hunchanged : ∀ (t : Batch) (row : Option ChildRun),
        claimedRun t claim ordinal = some (claimed, row) →
        (∀ other, row = some other → other.status.terminal = true) →
        (failBatchOwnedItem t claim ordinal publicReason diagnostic).toOption.getD t = t := by
      intro t row hrow hterminal
      cases hresult : failBatchOwnedItem t claim ordinal publicReason diagnostic with
      | error e => rfl
      | ok u =>
        simp only [failBatchOwnedItem, bind_ok_iff, hrow, found_ok_iff, Option.some.injEq] at hresult
        obtain ⟨-, -, -, rfl, other, hsome, -, -, hrest⟩ := hresult
        rw [if_pos (hterminal other hsome), pure_ok_iff] at hrest
        exact hrest.symm
    rw [hunchanged s row hrow hother, hunchanged s' (some run) hrow' fun other hsome => by
      cases hsome
      exact hrun]
    exact h

/-! ### Recovery -/

/-- The rows of an interrupted attempt, with what it leaves open. -/
def SameInterrupted (x y : Batch × Interrupted) : Prop := Same x.1 y.1 ∧ x.2 = y.2

lemma agrees_closeInterruptedAttempt (h : Same s s') (attemptId fence : Nat)
    (diagnostic : ResearchBatchDiagnostic) (policy : TaskFailurePolicy) (requireExpired : Bool) :
    Agrees SameInterrupted
      (closeInterruptedAttempt s attemptId fence diagnostic policy requireExpired)
      (closeInterruptedAttempt s' attemptId fence diagnostic policy requireExpired) := by
  cases h with
  | mk items h =>
    refine .step fun attempts _ => .step fun closed _ => ?_
    refine (agrees_reset h).bind fun reset reset' _ hreset => .commit ⟨?_, ?_⟩
    · exact .mk _ reset' hreset
    · rw [h.incompleteItems]

lemma agrees_finishInterruptedAttempt (h : Same s s') (attemptId fence pinId : Nat)
    (release : Bool) :
    Agrees Same (finishInterruptedAttempt s attemptId fence pinId release)
      (finishInterruptedAttempt s' attemptId fence pinId release) := by
  refine (agrees_releasePin h pinId attemptId).bind fun t t' _ ht => ?_
  cases ht with
  | mk items ht =>
    dsimp only
    rw [← ht.incompleteItems, ← ht.terminalStatusFromItems]
    split
    · exact agrees_leaveRunning (.mk t items ht) _ _
    · refine .step fun status _ => agrees_leaveRunning ?_ _ _
      exact .mk _ items ht

lemma same_setShared (h : Same s s') (status : SharedAlphaFactorStatus) :
    Same (s.setSharedAlphaFactorStatus status) (s'.setSharedAlphaFactorStatus status) := by
  cases h with
  | mk items h => exact .mk _ items h

lemma Same.progress (h : Same s s') : s'.progress = s.progress := by
  cases h with
  | mk items h => rfl

lemma agrees_settleFactorTask (h : Same s s') (interrupted : Interrupted)
    (policy : TaskFailurePolicy) (diagnostic : ResearchBatchDiagnostic) :
    Agrees Same (settleFactorTask s interrupted policy diagnostic)
      (settleFactorTask s' interrupted policy diagnostic) := by
  unfold settleFactorTask
  split
  · exact agrees_failRecoveredItems _ h _
  · cases interrupted.tasks.head? with
    | none =>
      dsimp only
      split
      · exact agrees_failRecoveredItems _ h _
      · exact .commit h
    | some task =>
      dsimp only
      split
      · exact agrees_failRecoveredItems _ h _
      · exact .commit h

lemma agrees_settleSweepTask (h : Same s s') (interrupted : Interrupted)
    (policy : TaskFailurePolicy) (diagnostic : ResearchBatchDiagnostic) :
    Agrees Same (settleSweepTask s interrupted policy diagnostic)
      (settleSweepTask s' interrupted policy diagnostic) := by
  unfold settleSweepTask
  rw [h.progress]
  cases interrupted.tasks.head? with
  | none =>
    dsimp only
    split
    · apply agrees_failRecoveredItems
      split
      · exact same_setShared h _
      · exact h
    · exact .commit h
  | some task =>
    dsimp only
    split
    · split
      · exact agrees_failRecoveredItems _ (same_setShared h _) _
      · exact .step fun _ _ => .commit (same_setShared h _)
    · split
      · exact agrees_failRecoveredItems _ h _
      · exact .commit h

lemma agrees_closeFactorAttempt (h : Same s s') (attemptId fence pinId : Nat)
    (policy : TaskFailurePolicy) (diagnostic : ResearchBatchDiagnostic) (requireExpired : Bool) :
    Agrees Same (closeFactorAttempt s attemptId fence pinId policy diagnostic requireExpired)
      (closeFactorAttempt s' attemptId fence pinId policy diagnostic requireExpired) := by
  refine (agrees_closeInterruptedAttempt h _ _ _ _ _).bind ?_
  rintro ⟨t, interrupted⟩ ⟨t', _⟩ _ ⟨ht, rfl⟩
  refine .step fun _ _ => (agrees_settleFactorTask ht _ _ _).bind fun u u' _ hu => ?_
  exact agrees_finishInterruptedAttempt hu _ _ _ _

lemma agrees_closeStrategyAttempt (h : Same s s') (attemptId fence pinId : Nat)
    (policy : TaskFailurePolicy) (diagnostic : ResearchBatchDiagnostic) (requireExpired : Bool) :
    Agrees Same (closeStrategyAttempt s attemptId fence pinId policy diagnostic requireExpired)
      (closeStrategyAttempt s' attemptId fence pinId policy diagnostic requireExpired) := by
  refine (agrees_closeInterruptedAttempt h _ _ _ _ _).bind ?_
  rintro ⟨t, interrupted⟩ ⟨t', _⟩ _ ⟨ht, rfl⟩
  dsimp only
  rw [h.kind]
  split
  · refine (agrees_failRecoveredItems _ ht _).bind fun u u' _ hu => ?_
    exact agrees_finishInterruptedAttempt hu _ _ _ _
  · refine .step fun _ _ => (agrees_settleSweepTask ht _ _ _).bind fun u u' _ hu => ?_
    exact agrees_finishInterruptedAttempt hu _ _ _ _

lemma agrees_closeAttempt (h : Same s s') (attemptId fence pinId : Nat)
    (policy : TaskFailurePolicy) (diagnostic : ResearchBatchDiagnostic) (requireExpired : Bool) :
    Agrees Same (closeAttempt s attemptId fence pinId policy diagnostic requireExpired)
      (closeAttempt s' attemptId fence pinId policy diagnostic requireExpired) := by
  unfold closeAttempt
  rw [h.kind]
  split
  · exact agrees_closeFactorAttempt h _ _ _ _ _ _
  · exact agrees_closeStrategyAttempt h _ _ _ _ _ _

lemma Same.attempts (h : Same s s') : s'.attempts = s.attempts := by
  cases h with
  | mk items h => rfl

lemma agrees_finishInterrupted (h : Same s s') (error : ExecutionError) (exited : Bool) :
    Agrees Same (finishInterrupted s claim error exited)
      (finishInterrupted s' claim error exited) := by
  unfold finishInterrupted
  rw [h.authorizeClaim, h.attempts, h.kind]
  exact .step fun _ _ => .step fun _ _ => .step fun _ _ => agrees_closeAttempt h _ _ _ _ _ _

lemma agrees_settleStart (h : Same s s') (incomplete : List Item) (terminal : Bool)
    (diagnostic : ResearchBatchDiagnostic) :
    Agrees Same (settleStart s incomplete terminal diagnostic)
      (settleStart s' incomplete terminal diagnostic) := by
  unfold settleStart
  split
  · exact agrees_failRecoveredItems _ h _
  · exact .commit h

lemma agrees_closeStart (h : Same s s') (starting : StartingClaim) (terminal : Bool)
    (diagnostic : ResearchBatchDiagnostic) :
    Agrees Same (closeStart s starting terminal diagnostic)
      (closeStart s' starting terminal diagnostic) := by
  cases h with
  | mk items h =>
    refine (agrees_reset h).bind fun reset reset' _ hreset => ?_
    dsimp only
    rw [← h.incompleteItems]
    have hsettled := agrees_settleStart (.mk { s with items := reset } reset' hreset)
      (incompleteItems s.items) terminal diagnostic
    refine hsettled.bind fun t t' _ ht => ?_
    cases ht with
    | mk items ht =>
      unfold startStatus
      dsimp only
      rw [← ht.terminalStatusFromItems]
      refine .step fun status _ => (agrees_releasePin ?_ _ _).bind fun u u' _ hu => ?_
      · exact .mk _ items ht
      · exact agrees_leaveRunning hu _ _

lemma agrees_finishInterruptedStart (h : Same s s') (error : ExecutionError) (exited : Bool) :
    Agrees Same (finishInterruptedStart s claim error exited)
      (finishInterruptedStart s' claim error exited) := by
  have hstarting : s'.startingClaim = s.startingClaim := by
    cases h with
    | mk items h => rfl
  unfold finishInterruptedStart
  rw [hstarting, h.kind]
  exact .step fun _ _ => .step fun _ _ => agrees_closeStart h _ _ _

/-! ### Claims -/

/-- Related rows, under the same new claim. -/
def SameClaim {Claim : Type} (x y : Batch × Claim) : Prop := Same x.1 y.1 ∧ x.2 = y.2

lemma agrees_pinGeneration (h : Same s s') (pinId ownerId leaseSeconds : Nat) :
    Agrees Same (pinGeneration s pinId ownerId leaseSeconds)
      (pinGeneration s' pinId ownerId leaseSeconds) := by
  cases h with
  | mk items h => exact .step fun _ _ => .commit (.mk _ items h)

lemma agrees_claimQueued (h : Same s s') (attemptId pinId leaseSeconds : Nat) :
    Agrees SameClaim (claimQueued s attemptId pinId leaseSeconds)
      (claimQueued s' attemptId pinId leaseSeconds) := by
  cases h with
  | mk items h =>
    refine (agrees_pinGeneration (.mk s items h) pinId attemptId leaseSeconds).bind ?_
    intro t t' _ ht
    dsimp only
    rw [← h.incompleteItems]
    refine .step fun _ _ => ?_
    refine (agrees_begin h).bind fun begun begun' _ hbegun => .step fun _ _ => .step fun _ _ => ?_
    rw [hbegun.incompleteItems]
    cases ht with
    | mk items ht => exact .commit ⟨.mk _ begun' hbegun, rfl⟩

lemma Same.status (h : Same s s') : s'.status = s.status := by
  cases h with
  | mk items h => rfl

lemma Same.clock (h : Same s s') : s'.clock = s.clock := by
  cases h with
  | mk items h => rfl

lemma Same.startingClaim (h : Same s s') : s'.startingClaim = s.startingClaim := by
  cases h with
  | mk items h => rfl

lemma Same.executionFence (h : Same s s') : s'.executionFence = s.executionFence := by
  cases h with
  | mk items h => rfl

lemma agrees_claimRecovered (h : Same s s') (attemptId pinId leaseSeconds : Nat) :
    Agrees SameClaim (claimRecovered s attemptId pinId leaseSeconds)
      (claimRecovered s' attemptId pinId leaseSeconds) := by
  unfold claimRecovered
  rw [h.status]
  split
  · refine (agrees_claimQueued h _ _ _).map ?_
    rintro ⟨t, claim⟩ ⟨t', _⟩ ⟨ht, rfl⟩
    exact ⟨ht, rfl⟩
  · exact .commit ⟨h, rfl⟩

/-- Two recoveries that both wait, or both leave related rows. -/
def SameRecovered : Option Batch → Option Batch → Prop := Option.Rel Same

lemma agrees_recoverExpired (h : Same s s') (exited : Bool) :
    Agrees SameRecovered (recoverExpired s exited) (recoverExpired s' exited) := by
  unfold recoverExpired recoverExpiredStart recoverExpiredAttempt
  rw [h.startingClaim, h.attempts, h.clock, h.executionFence, h.kind]
  cases s.startingClaim with
  | some starting =>
    refine .step fun _ _ => .step fun _ _ => ?_
    split
    · refine .step fun _ _ => (agrees_closeStart h _ _ _).map fun t t' ht => ?_
      exact .some ht
    · exact .commit .none
  | none =>
    cases runningAttempt s.attempts with
    | none => exact .rollback _ _
    | some attempt =>
      refine .step fun _ _ => .step fun _ _ => ?_
      split
      · exact (agrees_closeAttempt h _ _ _ _ _ _).map fun t t' ht => .some ht
      · exact .commit .none

lemma agrees_claimNext (h : Same s s') (attemptId pinId : Nat) (exited : Bool)
    (leaseSeconds : Nat) :
    Agrees SameClaim (claimNext s attemptId pinId exited leaseSeconds)
      (claimNext s' attemptId pinId exited leaseSeconds) := by
  unfold claimNext
  rw [h.status]
  split
  · exact agrees_claimRecovered h _ _ _
  · refine .step fun _ _ => (agrees_recoverExpired h exited).bind fun t t' _ ht => ?_
    cases ht with
    | none => exact .commit ⟨h, rfl⟩
    | some ht => exact agrees_claimRecovered ht _ _ _

/-! ### Cancellation -/

lemma agrees_cancelClaim (h : Same s s') : Agrees Same (cancelClaim s) (cancelClaim s') := by
  cases h with
  | mk items h =>
    unfold cancelClaim
    dsimp only
    cases runningAttempt s.attempts with
    | none =>
      cases hstarting : s.startingClaim with
      | none =>
        have hsame := Same.mk s items h
        rw [hstarting] at hsame
        exact .commit hsame
      | some starting =>
        apply agrees_releasePin
        exact .mk _ items h
    | some attempt =>
      cases s.startingClaim with
      | none =>
        refine .step fun attempts _ => ?_
        apply agrees_releasePin
        exact .mk _ items h
      | some starting => exact .rollback _ _

lemma agrees_finishCancelledBatch (h : Same s s') :
    Agrees Same (finishCancelledBatch s) (finishCancelledBatch s') := by
  cases h with
  | mk items h =>
    refine .step fun _ _ => (agrees_cancelItems h).bind fun kept kept' _ hkept => ?_
    refine (agrees_cancelClaim ?_).bind fun t t' _ ht => ?_
    · exact .mk _ kept' hkept
    · cases ht with
      | mk items ht =>
        dsimp only
        rw [← ht.outcomes]
        exact .commit (.mk _ items ht)

lemma agrees_beginCancel (h : Same s s') : Agrees Same (beginCancel s) (beginCancel s') := by
  unfold beginCancel
  rw [h.status]
  split
  · apply agrees_finishCancelledBatch
    cases h with
    | mk items h => exact .mk _ items h
  · split
    · cases h with
      | mk items h => exact .commit (.mk _ items h)
    · exact .rollback _ _

lemma projectChildStatuses_ok {items : List Item} (h : ∀ item ∈ items, ∃ run, item.run = some run) :
    ∃ statuses, projectChildStatuses items = .ok statuses := by
  have hrow : ∀ item ∈ items, ∃ status,
      (found item.run Refusal.childProjectionIncomplete).map ChildRun.status = .ok status ∧ True := by
    intro item hitem
    obtain ⟨run, hrun⟩ := h item hitem
    rw [hrun]
    exact ⟨_, rfl, trivial⟩
  obtain ⟨statuses, hstatuses, -⟩ := mapM_exists hrow
  exact ⟨statuses, hstatuses⟩

/-- The detail of a Batch leaves out the deleted Runs, and finds all the others. -/
lemma projectDetail_ok (h : ∀ item ∈ s.items, item.Coherent) : projectDetail s = .ok () := by
  have hrun : ∀ item ∈ s.items.filter fun item => !item.runDeleted,
      ∃ run, item.run = some run := by
    intro item hitem
    obtain ⟨hmem, hkept⟩ := List.mem_filter.mp hitem
    exact (h item hmem).run_of_kept (Bool.not_eq_true' _ ▸ hkept)
  obtain ⟨statuses, hstatuses⟩ := projectChildStatuses_ok hrun
  rw [projectDetail, hstatuses]
  rfl

lemma agrees_cancel (h : Same s s') : Agrees Same (cancel s) (cancel s') := by
  refine (agrees_beginCancel h).bind fun t t' _ ht => ?_
  rw [projectDetail_ok ht.alike.coherent,
    projectDetail_ok fun item hitem => (ht.alike.kept item hitem).1]
  exact .commit ht

lemma agrees_finishCancellingClaim (h : Same s s') (exited : Bool) :
    Agrees Same (finishCancellingClaim s claim exited) (finishCancellingClaim s' claim exited) := by
  unfold finishCancellingClaim
  rw [h.status, h.executionFence, h.attempts, h.startingClaim]
  exact .step fun _ _ => .step fun _ _ => agrees_finishCancelledBatch h

lemma agrees_reconcileCancellingBatch (h : Same s s') (exited : Bool) :
    Agrees Same (reconcileCancellingBatch s exited) (reconcileCancellingBatch s' exited) := by
  unfold reconcileCancellingBatch
  rw [h.status, h.attempts, h.startingClaim]
  exact .step fun _ _ => .step fun _ _ => agrees_finishCancelledBatch h

/-! ### The completion of an attempt -/

/-- The completion would go through if the Runs of all items were there. -/
structure ReadyToFinish (s : Batch) (claim : ResearchBatchClaim) (exited : Bool) : Prop where
  acknowledged : ∃ child, s.attempts.find? (claimedAttempt claim) = some child ∧
    child.childExit.any (fun exit => exit.2) = true
  exited : exited = true
  complete : incompleteItems s.items = []
  attempt : s.attempts.countP (fun attempt => claimedAttempt claim attempt ∧
    attempt.status = .running) = 1
  running : s.executionFence = claim.fence ∧ s.status = .running
  pin : s.pins.countP (ResearchRun.activePin claim.generationPinId claim.attemptId) = 1
  progress : refreshProgress s = .ok ()

/-- A deleted child stands in the way of a completion. -/
def FinishBlocked (s : Batch) (claim : ResearchBatchClaim) (exited : Bool) : Prop :=
  ReadyToFinish s claim exited ∧ ∃ item ∈ s.items, item.runDeleted = true

/-- The status that an item shows for its Run. -/
def Item.childStatus (item : Item) : Option RunStatus :=
  match item.outcome with
  | some outcome => some outcome.runStatus
  | none => item.run.map ChildRun.status

lemma childStatus_forgetRun (item : Item) : item.forgetRun.childStatus = item.childStatus := by
  cases h : item.incomplete with
  | true => rw [forgetRun_of_incomplete h]
  | false =>
    obtain ⟨outcome, houtcome⟩ := Option.isSome_iff_exists.mp (Option.isNone_eq_false_iff.mp h)
    simp [forgetRun_of_complete h, Item.childStatus, houtcome]

lemma run_status_of_kept {item : Item} (h : item.Coherent) (hkept : item.runDeleted = false) :
    item.run.map ChildRun.status = item.childStatus := by
  unfold Item.Coherent at h
  unfold Item.childStatus
  cases houtcome : item.outcome with
  | none => rfl
  | some outcome =>
    rw [houtcome] at h
    simpa [hkept] using h

lemma projectChildStatuses_eq {items : List Item}
    (h : ∀ item ∈ items, item.Coherent ∧ item.runDeleted = false) :
    projectChildStatuses items =
      (items.map Item.childStatus).mapM fun status =>
        found status Refusal.childProjectionIncomplete := by
  induction items with
  | nil => rfl
  | cons item items ih =>
    obtain ⟨hcoherent, hkept⟩ := h item List.mem_cons_self
    have hrest := ih fun other hother => h other (List.mem_cons_of_mem _ hother)
    rw [projectChildStatuses] at hrest ⊢
    rw [List.mapM_cons, List.map_cons, List.mapM_cons, hrest, ← run_status_of_kept hcoherent hkept]
    cases item.run <;> rfl

/-- Without deleted children both executions see the same statuses. -/
lemma Alike.projectChildStatuses {items items' : List Item} (h : Alike items items')
    (hkept : ∀ item ∈ items, item.runDeleted = false) :
    projectChildStatuses items = projectChildStatuses items' := by
  have hsame := congrArg (List.map Item.childStatus) h.same
  simp only [List.map_map, Function.comp_def, childStatus_forgetRun] at hsame
  rw [projectChildStatuses_eq fun item hitem => ⟨h.coherent item hitem, hkept item hitem⟩,
    projectChildStatuses_eq h.kept, hsame]

lemma Same.refreshProgress (h : Same s s') : refreshProgress s = refreshProgress s' := by
  cases h with
  | mk items h =>
    unfold ResearchBatch.refreshProgress
    dsimp only
    rw [h.outcomes, h.length]

lemma agrees_finish_of_kept (h : Same s s') (exited : Bool)
    (hkept : ∀ item ∈ s.items, item.runDeleted = false) :
    Agrees Same (finishSuccessfulAttempt s claim exited)
      (finishSuccessfulAttempt s' claim exited) := by
  unfold finishSuccessfulAttempt
  rw [h.attempts, h.alike.projectChildStatuses hkept, h.clock, h.executionFence, h.status, h.kind]
  refine .step fun _ _ => .step fun _ _ => .step fun statuses _ => .step fun _ _ => ?_
  refine .step fun attempts _ => .step fun _ _ => (agrees_releasePin ?_ _ _).bind ?_
  · cases h with
    | mk items h => exact .mk _ items h
  · intro t t' _ ht
    rw [ht.refreshProgress]
    exact .step fun _ _ => .commit ht

lemma ReadyToFinish.of_same {exited : Bool} (hready : ReadyToFinish s' claim exited)
    (h : Same s s') : ReadyToFinish s claim exited := by
  have hprogress := hready.progress
  rw [← h.refreshProgress] at hprogress
  have hcomplete := hready.complete
  rw [← h.alike.incompleteItems] at hcomplete
  cases h with
  | mk items h =>
    exact ⟨hready.acknowledged, hready.exited, hcomplete, hready.attempt, hready.running, hready.pin,
      hprogress⟩

/-- A completion that commits has found every Run, and was ready. -/
lemma ready_of_finish {t : Batch} {exited : Bool}
    (hfinish : finishSuccessfulAttempt s claim exited = .ok t) :
    (∀ item ∈ s.items, ∃ run, item.run = some run ∧ run.status.terminal = true) ∧
      ((∀ item ∈ s.items, item.Coherent) → ReadyToFinish s claim exited) := by
  simp only [finishSuccessfulAttempt, bind_ok_iff, found_ok_iff, require_ok_iff] at hfinish
  obtain ⟨child, hchild, -, ⟨hacknowledged, hexited⟩, statuses, hstatuses, -, hterminal, attempts,
    hattempts, -, hrunning, released, hreleased, _, hprogress, -⟩ := hfinish
  have hruns : ∀ item ∈ s.items, ∃ run, item.run = some run ∧ run.status.terminal = true := by
    intro item hitem
    obtain ⟨status, hstatus, hrow⟩ := exists_mem_of_mapM hstatuses hitem
    rw [map_ok_iff] at hrow
    obtain ⟨run, hrun, rfl⟩ := hrow
    exact ⟨run, found_ok_iff.mp hrun, List.all_eq_true.mp hterminal _ hstatus⟩
  refine ⟨hruns, fun hcoherent => ⟨⟨child, hchild, hacknowledged⟩, hexited, ?_, ?_, hrunning, ?_, ?_⟩⟩
  · rw [incompleteItems, List.filter_eq_nil_iff]
    intro item hitem hincomplete
    obtain ⟨-, run, hrun, hopen⟩ := (hcoherent item hitem).run_of_incomplete hincomplete
    obtain ⟨run', hrun', hclosed⟩ := hruns item hitem
    cases hrun.symm.trans hrun'
    cases hopen.symm.trans hclosed
  · simp only [updateOne, bind_ok_iff, require_ok_iff] at hattempts
    obtain ⟨-, hcount, -⟩ := hattempts
    exact hcount
  · simp only [releasePin, bind_ok_iff, require_ok_iff] at hreleased
    obtain ⟨-, hcount, -⟩ := hreleased
    exact hcount
  · simp only [releasePin, bind_ok_iff, require_ok_iff, pure_ok_iff] at hreleased
    obtain ⟨-, -, rfl⟩ := hreleased
    exact hprogress

/-- Unless a deleted child blocks it, a completion does in both executions the same. -/
lemma agrees_finishSuccessfulAttempt (h : Same s s') (exited : Bool)
    (hfree : ¬FinishBlocked s claim exited) :
    Agrees Same (finishSuccessfulAttempt s claim exited)
      (finishSuccessfulAttempt s' claim exited) := by
  by_cases hkept : ∀ item ∈ s.items, item.runDeleted = false
  · exact agrees_finish_of_kept h exited hkept
  push Not at hkept
  obtain ⟨item, hitem, hdeleted⟩ := hkept
  rw [ne_eq, Bool.not_eq_false] at hdeleted
  cases hs : finishSuccessfulAttempt s claim exited with
  | ok t =>
    obtain ⟨run, hrun, -⟩ := (ready_of_finish hs).1 item hitem
    have hcoherent := h.alike.coherent item hitem
    exact absurd hrun (hcoherent.run_of_deleted hdeleted ▸ nofun)
  | error e =>
    cases hs' : finishSuccessfulAttempt s' claim exited with
    | error e' => exact .rollback e e'
    | ok t' =>
      have hready := (ready_of_finish hs').2 fun item hitem => (h.alike.kept item hitem).1
      exact absurd ⟨hready.of_same h, item, hitem, hdeleted⟩ hfree

/-! ### Deletions -/

/-- A deletion is not seen by the execution without it. -/
lemma same_deleteRun {t : Batch} {ordinal : Nat} (h : Same s s')
    (hdelete : deleteRun s ordinal = .ok t) : Same t s' := by
  simp only [deleteRun, bind_ok_iff, found_ok_iff, require_ok_iff, pure_ok_iff] at hdelete
  obtain ⟨item, hitem, run, hrun, -, hterminal, -, ⟨hcomplete, hkept⟩, rfl⟩ := hdelete
  have hfound : item.ordinal = ordinal := by simpa using List.find?_some hitem
  have hmem := List.mem_of_find?_eq_some hitem
  have halike := h.alike
  -- The ordinal is the key of the items, so no other item changes.
  have honly : ∀ other ∈ s.items, other.ordinal = ordinal → other = item := by
    intro other hother heq
    exact List.inj_on_of_nodup_map halike.ordinals hother hmem (heq.trans hfound.symm)
  have hdone : item.incomplete = false := by
    rw [Item.incomplete, Option.isNone_eq_false_iff]
    exact hcomplete
  cases h with
  | mk items _ =>
    apply Same.mk { s with items := _ } items
    refine ⟨?_, ?_, ?_, halike.kept⟩
    · rw [← halike.same]
      dsimp only [updateRows]
      rw [List.map_map]
      apply List.map_congr_left
      intro other hother
      rw [Function.comp_apply]
      split
      · next hselected =>
        rw [honly other hother (of_decide_eq_true hselected), forgetRun_of_complete hdone,
          forgetRun_of_complete]
        exact hdone
      · rfl
    · dsimp only [updateRows]
      rw [List.map_map]
      have hordinals : s.items.map (Item.ordinal ∘ fun row =>
          if decide (row.ordinal = ordinal) then { row with runDeleted := true, run := none }
          else row) = s.items.map Item.ordinal := by
        apply List.map_congr_left
        intro other _
        rw [Function.comp_apply]
        split <;> rfl
      rw [hordinals]
      exact halike.ordinals
    · intro changed hchanged
      obtain ⟨old, hold, rfl⟩ := List.mem_map.mp hchanged
      split
      · next hselected =>
        obtain rfl := honly old hold (of_decide_eq_true hselected)
        obtain ⟨outcome, houtcome⟩ := Option.isSome_iff_exists.mp hcomplete
        simp [Item.Coherent, houtcome]
      · exact halike.coherent old hold

end Transactions

/-! ### Executions -/

def Action.deletes : Action → Bool
  | .deleteRun _ => true
  | _ => false

/-- The two executions after the same actions. -/
structure SameWorld (w w' : World) : Prop where
  batch : Same w.batch w'.batch
  claims : w'.claims = w.claims

/-- No completion among the actions is blocked when its turn comes. -/
def Unblocked (leaseSeconds : Nat) (w : World) (actions : List Action) : Prop :=
  Each (fun pre a => ∀ claim exited, a = .finishSuccessful claim exited →
    ¬FinishBlocked (w.run leaseSeconds pre).batch claim exited) actions

section Runs

variable {leaseSeconds : Nat} {w w' : World} {a : Action}

lemma newClaim_of_error {s : Batch} {e : Refusal} (h : transact leaseSeconds s a = .error e) :
    newClaim leaseSeconds s a = none := by
  cases a with
  | claim attemptId pinId exited =>
    rw [transact] at h
    rw [newClaim]
    cases hclaim : claimNext s attemptId pinId exited leaseSeconds with
    | error e => rfl
    | ok claimed =>
      rw [hclaim] at h
      cases h
  | _ => rfl

lemma after_of_held (h : ∀ claim ∈ a.holder, claim ∈ w.claims) :
    w.after leaseSeconds a =
      { batch := (transact leaseSeconds w.batch a).toOption.getD w.batch
        claims := w.claims ++ (newClaim leaseSeconds w.batch a).toList } := by
  unfold World.after step
  rw [require_ok_iff (u := ()).mpr h, ok_bind]
  cases hresult : transact leaseSeconds w.batch a with
  | ok t => rfl
  | error e =>
    rw [newClaim_of_error hresult, Option.toList_none, List.append_nil]
    rfl

lemma after_of_not_held (h : ¬∀ claim ∈ a.holder, claim ∈ w.claims) :
    w.after leaseSeconds a = w := by
  unfold World.after step
  rw [require, if_neg h]
  rfl

lemma same_newClaim {s s' : Batch} (h : Same s s') :
    newClaim leaseSeconds s' a = newClaim leaseSeconds s a := by
  cases a with
  | claim attemptId pinId exited =>
    rw [newClaim, newClaim]
    have hagrees := agrees_claimNext h attemptId pinId exited leaseSeconds
    generalize claimNext s attemptId pinId exited leaseSeconds = x at hagrees ⊢
    generalize claimNext s' attemptId pinId exited leaseSeconds = x' at hagrees ⊢
    cases hagrees with
    | commit hclaimed => exact hclaimed.2.symm
    | rollback e e' => rfl
  | _ => rfl

/-- Every action but a deletion does in both executions the same. -/
lemma same_transact {s s' : Batch} (h : Same s s') (hkeeps : a.deletes = false)
    (hfree : ∀ claim exited, a = .finishSuccessful claim exited →
      ¬FinishBlocked s claim exited) :
    Same ((transact leaseSeconds s a).toOption.getD s)
      ((transact leaseSeconds s' a).toOption.getD s') := by
  cases a with
  | failItem claim ordinal publicReason diagnostic => exact same_failBatchOwnedItem h _ _ _
  | deleteRun ordinal => cases hkeeps
  | tick clock =>
    apply h.after
    rw [transact, transact, h.clock]
    refine .step fun _ _ => ?_
    cases h with
    | mk items h => exact .commit (.mk _ items h)
  | claim attemptId pinId exited =>
    apply h.after
    exact (agrees_claimNext h _ _ _ _).map fun _ _ hclaimed => hclaimed.1
  | activate claim childPid => exact h.after (agrees_activateStartingClaim h _)
  | childExit claim childPid exitCode acknowledged => exact h.after (agrees_recordChildExit h _ _ _)
  | heartbeat claim => exact h.after (agrees_heartbeatClaim h _)
  | startItem claim ordinal => exact h.after (agrees_startItem h _)
  | startSharedAlphaFactor claim reused => exact h.after (agrees_startSharedAlphaFactor h _)
  | acknowledgePrivateArtifact claim reused =>
    exact h.after (agrees_acknowledgePrivateArtifact h _)
  | failSharedAlphaFactor claim => exact h.after (agrees_failSharedAlphaFactor h)
  | completeItem claim ordinal => exact h.after (agrees_completeBatchOwnedItem h _)
  | finishSuccessful claim exited =>
    exact h.after (agrees_finishSuccessfulAttempt h _ (hfree claim exited rfl))
  | finishInterrupted claim error exited => exact h.after (agrees_finishInterrupted h _ _)
  | finishInterruptedStart claim error exited =>
    exact h.after (agrees_finishInterruptedStart h _ _)
  | finishCancelling claim exited => exact h.after (agrees_finishCancellingClaim h _)
  | cancel => exact h.after (agrees_cancel h)
  | reconcileCancelling exited => exact h.after (agrees_reconcileCancellingBatch h _)

lemma sameWorld_after (h : SameWorld w w') (hkeeps : a.deletes = false)
    (hfree : ∀ claim exited, a = .finishSuccessful claim exited →
      ¬FinishBlocked w.batch claim exited) :
    SameWorld (w.after leaseSeconds a) (w'.after leaseSeconds a) := by
  by_cases hheld : ∀ claim ∈ a.holder, claim ∈ w.claims
  · rw [after_of_held hheld, after_of_held (h.claims ▸ hheld)]
    exact ⟨same_transact h.batch hkeeps hfree, by rw [h.claims, same_newClaim h.batch]⟩
  · rw [after_of_not_held hheld, after_of_not_held (h.claims ▸ hheld)]
    exact h

lemma sameWorld_delete (h : SameWorld w w') (hdeletes : a.deletes = true) :
    SameWorld (w.after leaseSeconds a) w' := by
  cases a with
  | deleteRun ordinal =>
    rw [after_of_held (by intro claim hclaim; cases hclaim)]
    dsimp only [transact, newClaim]
    rw [Option.toList_none, List.append_nil]
    refine ⟨?_, h.claims⟩
    cases hdelete : deleteRun w.batch ordinal with
    | ok t => exact same_deleteRun h.batch hdelete
    | error e => exact h.batch
  | _ => cases hdeletes

/-- The executions with and without the deletions go on side by side. -/
lemma sameWorld_run (h : SameWorld w w') {actions : List Action}
    (hfree : Unblocked leaseSeconds w actions) :
    SameWorld (w.run leaseSeconds actions)
      (w'.run leaseSeconds (actions.filter fun a => !a.deletes)) := by
  induction actions using List.reverseRecOn with
  | nil => exact h
  | append_singleton actions a ih =>
    have hbefore := ih fun pre b post heq => hfree pre b (post ++ [a]) (by rw [heq]; simp)
    have hlast := hfree actions a [] rfl
    rw [World.run, List.foldl_concat, ← World.run, List.filter_append]
    cases hdeletes : a.deletes with
    | true =>
      rw [List.filter_singleton, hdeletes, Bool.not_true, cond_false, List.append_nil]
      exact sameWorld_delete hbefore hdeletes
    | false =>
      rw [List.filter_singleton, hdeletes, Bool.not_false, cond_true]
      nth_rewrite 2 [World.run]
      rw [List.foldl_concat, ← World.run]
      exact sameWorld_after hbefore hdeletes hlast

lemma alike_admitted (kind : BatchKind) (total : Nat) :
    Alike (admitted kind total).batch.items (admitted kind total).batch.items := by
  have hcoherent : ∀ item ∈ (admitted kind total).batch.items,
      item.Coherent ∧ item.runDeleted = false := by
    intro item hitem
    obtain ⟨index, -, rfl⟩ := List.mem_map.mp hitem
    exact ⟨⟨rfl, _, rfl, rfl⟩, rfl⟩
  refine ⟨rfl, ?_, fun item hitem => (hcoherent item hitem).1, hcoherent⟩
  rw [admitted, List.map_map]
  apply List.Nodup.map _ List.nodup_range
  intro i j hij
  exact Nat.succ.inj hij

lemma sameWorld_admitted (kind : BatchKind) (total : Nat) :
    SameWorld (admitted kind total) (admitted kind total) :=
  ⟨.mk _ _ (alike_admitted kind total), rfl⟩

end Runs

/-! ### What a Batch shows -/

/-- An item with its outcome. -/
structure ItemView where
  ordinal : Nat
  outcome : Option Outcome
  diagnostic : Option ResearchBatchDiagnostic
  deriving DecidableEq

/-- The part of a Batch that deletions should leave alone. -/
structure BatchView where
  status : BatchStatus
  attempts : List Attempt
  taskAttempts : List TaskAttempt
  items : List ItemView
  progress : Progress
  deriving DecidableEq

def Item.view (item : Item) : ItemView := ⟨item.ordinal, item.outcome, item.diagnostic⟩

def Batch.view (s : Batch) : BatchView :=
  ⟨s.status, s.attempts, s.taskAttempts, s.items.map Item.view, s.progress⟩

lemma view_forgetRun (item : Item) : item.forgetRun.view = item.view := by
  unfold Item.forgetRun
  split <;> rfl

lemma Same.view {s s' : Batch} (h : Same s s') : s.view = s'.view := by
  cases h with
  | mk items h =>
    have hitems := congrArg (List.map Item.view) h.same
    simp only [List.map_map, Function.comp_def, view_forgetRun] at hitems
    rw [Batch.view, Batch.view, hitems]

/-- The attempt of a claim is recorded as succeeded. -/
def Succeeded (s : Batch) (claim : ResearchBatchClaim) : Prop :=
  ∃ attempt ∈ s.attempts, claimedAttempt claim attempt = true ∧ attempt.status = .succeeded

lemma projectChildStatuses_terminal {items : List Item} (hcomplete : incompleteItems items = [])
    (h : ∀ item ∈ items, item.Coherent ∧ item.runDeleted = false) :
    ∃ statuses, projectChildStatuses items = .ok statuses ∧
      statuses.all RunStatus.terminal = true := by
  refine ⟨items.map fun item => (item.run.map ChildRun.status).getD .queued, mapM_ok ?_, ?_⟩
  · intro item hitem
    obtain ⟨run, hrun⟩ := (h item hitem).1.run_of_kept (h item hitem).2
    rw [hrun]
    rfl
  · rw [List.all_map, List.all_eq_true]
    intro item hitem
    obtain ⟨run, hrun⟩ := (h item hitem).1.run_of_kept (h item hitem).2
    have hdone := List.filter_eq_nil_iff.mp hcomplete item hitem
    rw [Function.comp_apply, hrun]
    exact (h item hitem).1.terminal_of_complete (Bool.not_eq_true _ ▸ hdone) hrun

/-- With the Runs of all items, a completion that is ready goes through. -/
lemma ready_finishes {s : Batch} {claim : ResearchBatchClaim} {exited : Bool}
    (hready : ReadyToFinish s claim exited)
    (hitems : ∀ item ∈ s.items, item.Coherent ∧ item.runDeleted = false) :
    ∃ t, finishSuccessfulAttempt s claim exited = .ok t ∧ Succeeded t claim := by
  obtain ⟨child, hchild, hacknowledged⟩ := hready.acknowledged
  obtain ⟨statuses, hstatuses, hterminal⟩ := projectChildStatuses_terminal hready.complete hitems
  have hprogress := require_ok_iff.mp hready.progress
  simp only [finishSuccessfulAttempt, updateOne, releasePin, refreshProgress, bind_ok_iff,
    found_ok_iff, require_ok_iff, pure_ok_iff]
  refine ⟨_, ⟨child, hchild, (), ⟨hacknowledged, hready.exited⟩, statuses, hstatuses, (), hterminal,
    _, ⟨(), hready.attempt, rfl⟩, (), hready.running, _, ⟨(), hready.pin, rfl⟩, (), hprogress, rfl⟩, ?_⟩
  obtain ⟨attempt, hattempt, hown⟩ := List.countP_pos_iff.mp (hready.attempt ▸ Nat.one_pos)
  refine ⟨_, List.mem_map.mpr ⟨attempt, hattempt, rfl⟩, ?_⟩
  rw [if_pos hown]
  exact ⟨(of_decide_eq_true hown).1, rfl⟩

/-- A ready completion that no deleted child blocks records a success. -/
lemma succeeded_of_ready {s s' : Batch} {claim : ResearchBatchClaim} {exited : Bool}
    (h : Same s s') (hready : ReadyToFinish s claim exited)
    (hfree : ¬FinishBlocked s claim exited) :
    ∃ t, finishSuccessfulAttempt s claim exited = .ok t ∧ Succeeded t claim := by
  apply ready_finishes hready
  intro item hitem
  refine ⟨h.alike.coherent item hitem, ?_⟩
  by_contra hdeleted
  exact hfree ⟨hready, item, hitem, Bool.not_eq_false _ ▸ hdeleted⟩

/-- Deletions of finished children leave no trace in the Batch, as long as no completion of an
attempt meets a deleted child. -/
theorem deleted_children_unnoticed (kind : BatchKind) (total leaseSeconds : Nat)
    (actions : List Action) (hfree : Unblocked leaseSeconds (admitted kind total) actions) :
    ((admitted kind total).run leaseSeconds actions).batch.view =
        ((admitted kind total).run leaseSeconds (actions.filter fun a => !a.deletes)).batch.view ∧
      ∀ pre claim exited post, actions = pre ++ .finishSuccessful claim exited :: post →
        claim ∈ ((admitted kind total).run leaseSeconds pre).claims →
        ReadyToFinish ((admitted kind total).run leaseSeconds pre).batch claim exited →
        Succeeded ((admitted kind total).run leaseSeconds
          (pre ++ [.finishSuccessful claim exited])).batch claim := by
  have hstart := sameWorld_admitted kind total
  refine ⟨(sameWorld_run hstart hfree).batch.view, ?_⟩
  intro pre claim exited post heq hheld hready
  have hbefore : Unblocked leaseSeconds (admitted kind total) pre := by
    intro front a back hpre
    exact hfree front a (back ++ .finishSuccessful claim exited :: post) (by rw [heq, hpre]; simp)
  have hsame := sameWorld_run hstart hbefore
  obtain ⟨t, ht, hsucceeded⟩ := succeeded_of_ready hsame.batch hready
    (hfree pre _ post heq claim exited rfl)
  rw [World.run, List.foldl_concat, ← World.run, after_of_held, transact, ht]
  · exact hsucceeded
  · intro held hmem
    cases hmem
    exact hheld

/-! ### Two children -/

def sampleClaim : ResearchBatchClaim := ⟨7, 1, 8, [⟨1, 1⟩, ⟨2, 1⟩]⟩

/-- A worker computes both children. -/
def sampleItems : List Action :=
  [.claim 7 8 false, .activate sampleClaim 99, .startItem sampleClaim 1,
    .completeItem sampleClaim 1, .startItem sampleClaim 2, .completeItem sampleClaim 2,
    .childExit sampleClaim 99 0 true]

theorem deleted_children_unnoticed_sample :
    ((admitted .factorEvaluation 2).run 900 (sampleItems ++
        [Action.finishSuccessful sampleClaim true, Action.deleteRun 1])).batch.view =
      ((admitted .factorEvaluation 2).run 900 (sampleItems ++
        [Action.finishSuccessful sampleClaim true])).batch.view ∧
      Succeeded ((admitted .factorEvaluation 2).run 900 (sampleItems ++
        [Action.finishSuccessful sampleClaim true])).batch sampleClaim := by
  have hkept : ∀ item ∈ ((admitted .factorEvaluation 2).run 900 sampleItems).batch.items,
      item.runDeleted = false := by decide
  have hfree : Unblocked 900 (admitted .factorEvaluation 2) (sampleItems ++
      [Action.finishSuccessful sampleClaim true, Action.deleteRun 1]) := by
    intro pre a post heq claim exited hfinish
    have hpre : pre = sampleItems := by
      simp [sampleItems, List.cons_eq_append_iff, hfinish] at heq
      simp [sampleItems, heq]
    rintro ⟨-, item, hitem, hdeleted⟩
    exact Bool.false_ne_true ((hkept item (hpre ▸ hitem)).symm.trans hdeleted)
  have hrun := deleted_children_unnoticed .factorEvaluation 2 900 _ hfree
  refine ⟨hrun.1, hrun.2 sampleItems sampleClaim true [.deleteRun 1] rfl ?_ ?_⟩
  · decide
  · exact ⟨⟨_, rfl, rfl⟩, rfl, by decide, by decide, by decide,
      by decide, rfl⟩

/-- The first child is deleted while the second one is computed. The completion is refused then, and
the worker closes the attempt as interrupted. -/
def sampleRun : List Action :=
  sampleItems.insertIdx 4 (.deleteRun 1) ++ [Action.finishSuccessful sampleClaim true,
    Action.finishInterrupted sampleClaim .other true]

/-- The child acknowledged that all items are done, and without the deletion the attempt succeeds;
with it the attempt is recorded as failed. -/
theorem deleted_child_fails_attempt :
    (((admitted .factorEvaluation 2).run 900 sampleRun).batch.attempts.map fun attempt =>
        (attempt.status, attempt.failureReason, attempt.childExit)) =
        [(.failed, some "PermanentExecutionFailure", some (0, true))] ∧
      (((admitted .factorEvaluation 2).run 900
          (sampleRun.filter fun a => !a.deletes)).batch.attempts.map fun attempt =>
        (attempt.status, attempt.failureReason, attempt.childExit)) =
        [(.succeeded, none, some (0, true))] ∧
      ¬∀ kind total leaseSeconds actions,
        ((admitted kind total).run leaseSeconds actions).batch.view =
          ((admitted kind total).run leaseSeconds
            (actions.filter fun a => !a.deletes)).batch.view := by
  refine ⟨by decide, by decide, fun h => ?_⟩
  have hattempts := congrArg (fun view => view.attempts.map Attempt.status)
    (h .factorEvaluation 2 900 sampleRun)
  revert hattempts
  decide

end ThesisTrace.ResearchBatch
