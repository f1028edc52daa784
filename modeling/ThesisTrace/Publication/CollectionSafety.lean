import ThesisTrace.Publication.Collection
import ThesisTrace.Publication.Inventory

/-!
# Collection never loses a linked or a staged object

A linked object is found again when its record commits, since only a holder of the mutation lock
deletes objects. A staged object stays because a collector holds the staging lock exclusively. The
inventories stay complete since every transaction keeps them in its own copy of the tables.
-/

namespace ThesisTrace.Publication
open LabelledTransition Transaction

variable {manifestDigest : Manifest → Sha256} {s s' : PublicationState} {event : PublicationEvent}

/-! ### Links of one transaction -/

/-- Every linked object is in the store. -/
def LinksStored (store : Sha256 → Option Nat) (t : Tables) : Prop :=
  ∀ link ∈ t.manifestObjects, (store link.objectSha256).isSome

lemma LinksStored.subset {store : Sha256 → Option Nat} {t t' : Tables} (h : LinksStored store t)
    (hsub : ∀ link ∈ t'.manifestObjects, link ∈ t.manifestObjects) : LinksStored store t' :=
  fun link hlink => h link (hsub link hlink)

lemma releaseManifest_links {t : Tables} {sha : Sha256} {stillReferenced : Bool} :
    ∀ link ∈ (releaseManifest t sha stillReferenced).manifestObjects,
      link ∈ t.manifestObjects := by
  unfold releaseManifest
  cases stillReferenced with
  | true => exact fun link hlink => hlink
  | false =>
    obtain ⟨queue, hqueue⟩ := enqueueDeletions_eq ((linksOf t sha).map ObjectLink.objectSha256)
      (deleteManifest t sha)
    rw [if_neg Bool.false_ne_true, hqueue]
    exact fun link hlink => List.mem_of_mem_filter hlink

lemma expirePayloads_links {t t' : Tables} {sha : Sha256} (h : expirePayloads t sha = .ok t') :
    ∀ link ∈ t'.manifestObjects, link ∈ t.manifestObjects := by
  unfold expirePayloads at h
  simp only [bind_ok_iff, found_ok_iff, require_ok_iff, pure_ok_iff] at h
  obtain ⟨row, -, -, -, -, -, rfl⟩ := h
  obtain ⟨queue, hqueue⟩ := enqueueDeletions_eq
    ((expiringObjects t sha row.payloadNames).map fun object => object.objectSha256)
    (moveToTombstones t sha row.payloadNames)
  rw [hqueue]
  exact fun link hlink => List.mem_of_mem_filter hlink

/-- A record links only the objects of its manifest. -/
lemma recordTables_links {t t' : Tables} {m : Manifest} {expiring : List String}
    (h : recordTables manifestDigest t m expiring = .ok t') :
    ∀ link ∈ t'.manifestObjects, link ∈ t.manifestObjects ∨
      ∃ item ∈ m.objects, link.objectSha256 = item.sha256 := by
  unfold recordTables at h
  simp only [bind_ok_iff] at h
  obtain ⟨t₁, hobjects, t₂, hmanifest, _, -, hretention⟩ := h
  obtain ⟨-, hlinks₁, -⟩ := insertObjects_spec (manifestDigest m) hobjects
  obtain ⟨-, hlinks₂, -⟩ := insertManifest_spec hmanifest
  obtain ⟨-, -, -, hlinks₃⟩ := insertLinks_spec (manifestDigest m) m.objects.zipIdx t₂
  obtain ⟨retention, rfl⟩ := insertRetention_spec hretention
  intro link hlink
  rcases hlinks₃ link hlink with hold | ⟨item, hitem, hdigest⟩
  · rw [hlinks₂, hlinks₁] at hold
    exact .inl hold
  · exact .inr ⟨item.1, List.fst_mem_of_mem_zipIdx hitem, hdigest⟩

/-! ### The invariant -/

/-- The objects of a manifest that were read so far. -/
def Recording.Verified (store : Sha256 → Option Nat) (r : Recording) : Prop :=
  ∀ item ∈ r.manifest.objects, item ∈ r.left ∨ (store item.sha256).isSome

def TransactionInvariant (manifestDigest : Manifest → Sha256) (s : PublicationState)
    (t : TransactionId) : TransactionState → Prop
  | .closed => s.mutationLock ≠ some t ∧ s.stagingLock ≠ some t
  | .mutating work recording => s.mutationLock = some t ∧ s.stagingLock ≠ some t ∧
      Consistent manifestDigest work ∧ LinksStored s.store work ∧
      ∀ r, recording = some r → r.Verified s.store
  | .collecting .mutationLocked => s.mutationLock = some t ∧ s.stagingLock ≠ some t
  | .collecting (.deleting digest _) => s.mutationLock = some t ∧ s.stagingLock = some t ∧
      isLinked s.tables digest = false
  | .collecting _ => s.mutationLock = some t ∧ s.stagingLock = some t

structure PublicationInvariant (manifestDigest : Manifest → Sha256) (s : PublicationState) :
    Prop where
  consistent : Consistent manifestDigest s.tables
  linked : LinksStored s.store s.tables
  staged : ∀ k verified, s.scopes k = some verified → ∀ digest ∈ verified,
    (s.store digest).isSome
  exclusive : ∀ t, s.stagingLock = some t → ∀ k, s.scopes k = none
  transactions : ∀ t, TransactionInvariant manifestDigest s t (s.transactions t)

/-- The store keeps what it has. -/
def Keeps (store store' : Sha256 → Option Nat) : Prop :=
  ∀ digest, (store digest).isSome → (store' digest).isSome

lemma TransactionInvariant.frame {t : TransactionId} {state : TransactionState}
    (h : TransactionInvariant manifestDigest s t state) (hstore : Keeps s.store s'.store)
    (hmutation : s'.mutationLock = some t ↔ s.mutationLock = some t)
    (hstaging : s'.stagingLock = some t ↔ s.stagingLock = some t)
    (htables : s'.tables = s.tables) : TransactionInvariant manifestDigest s' t state := by
  cases state with
  | closed => exact ⟨mt hmutation.mp h.1, mt hstaging.mp h.2⟩
  | mutating work recording =>
    obtain ⟨hheld, hnot, hconsistent, hlinks, hverified⟩ := h
    refine ⟨hmutation.mpr hheld, mt hstaging.mp hnot, hconsistent,
      fun link hlink => hstore _ (hlinks link hlink), fun r hr item hitem => ?_⟩
    exact (hverified r hr item hitem).imp_right (hstore _)
  | collecting phase =>
    cases phase with
    | mutationLocked => exact ⟨hmutation.mpr h.1, mt hstaging.mp h.2⟩
    | deleting digest queued =>
      exact ⟨hmutation.mpr h.1, hstaging.mpr h.2.1, htables ▸ h.2.2⟩
    | stagingLocked | retaining | deleted => exact ⟨hmutation.mpr h.1, hstaging.mpr h.2⟩

/-- Whoever is at work holds the mutation lock. -/
lemma TransactionInvariant.of_unlocked {t : TransactionId} {state : TransactionState}
    (h : TransactionInvariant manifestDigest s t state) (hlock : s.mutationLock ≠ some t) :
    state = .closed := by
  cases state with
  | closed => rfl
  | mutating work recording => exact absurd h.1 hlock
  | collecting phase =>
    cases phase <;> exact absurd h.1 hlock

/-! ### Steps -/

lemma PublicationInvariant.setTransaction {t : TransactionId} {state : TransactionState}
    (h : PublicationInvariant manifestDigest s)
    (hself : TransactionInvariant manifestDigest s t state) :
    PublicationInvariant manifestDigest (s.setTransaction t state) where
  consistent := h.consistent
  linked := h.linked
  staged := h.staged
  exclusive := h.exclusive
  transactions u := by
    have hframe : ∀ {u : TransactionId} {state' : TransactionState},
        TransactionInvariant manifestDigest s u state' →
          TransactionInvariant manifestDigest (s.setTransaction t state) u state' :=
      fun hu => hu.frame (fun _ hstored => hstored) Iff.rfl Iff.rfl rfl
    by_cases hu : u = t
    · subst hu
      have hstate : (s.setTransaction u state).transactions u = state := Function.update_self ..
      rw [hstate]
      exact hframe hself
    · have hstate : (s.setTransaction t state).transactions u = s.transactions u :=
        Function.update_of_ne hu _ _
      rw [hstate]
      exact hframe (h.transactions u)

lemma PublicationInvariant.mutating {t : TransactionId} {work : Tables}
    {recording : Option Recording} (h : PublicationInvariant manifestDigest s)
    (hwork : s.transactions t = .mutating work recording) :
    TransactionInvariant manifestDigest s t (.mutating work recording) := by
  have hinv := h.transactions t
  rw [hwork] at hinv
  exact hinv

/-- Nobody else is at work while a transaction holds the mutation lock. -/
lemma PublicationInvariant.closed_of_ne {t u : TransactionId}
    (h : PublicationInvariant manifestDigest s) (hlock : s.mutationLock = some t) (hu : u ≠ t) :
    s.transactions u = .closed ∧ s.stagingLock ≠ some u := by
  have hinv := h.transactions u
  have hidle := hinv.of_unlocked (by rw [hlock]; exact fun heq => hu (Option.some.inj heq).symm)
  rw [hidle] at hinv
  exact ⟨hidle, hinv.2⟩

/-- A transaction takes the free mutation lock and begins. -/
lemma PublicationInvariant.beginTransaction {t : TransactionId} {state : TransactionState}
    (h : PublicationInvariant manifestDigest s) (hfree : s.mutationLock = none)
    (hself : s.stagingLock ≠ some t → TransactionInvariant manifestDigest
      { s.setTransaction t state with mutationLock := some t } t state)
    (hclosed : s.transactions t = .closed) :
    PublicationInvariant manifestDigest
      { s.setTransaction t state with mutationLock := some t } where
  consistent := h.consistent
  linked := h.linked
  staged := h.staged
  exclusive := h.exclusive
  transactions u := by
    by_cases hu : u = t
    · subst hu
      have hinv := h.transactions u
      rw [hclosed] at hinv
      have hstate : Function.update s.transactions u state u = state := Function.update_self ..
      change TransactionInvariant manifestDigest _ u (Function.update s.transactions u state u)
      rw [hstate]
      exact hself hinv.2
    · have hinv := h.transactions u
      have hidle := hinv.of_unlocked (by rw [hfree]; exact Option.some_ne_none u |>.symm)
      rw [hidle] at hinv
      have hstate : Function.update s.transactions t state u = .closed :=
        (Function.update_of_ne hu _ _).trans hidle
      change TransactionInvariant manifestDigest _ u (Function.update s.transactions t state u)
      rw [hstate]
      exact ⟨fun heq => hu (Option.some.inj heq).symm, hinv.2⟩

/-- The holder of the mutation lock ends with new tables. -/
lemma PublicationInvariant.endTransaction {t : TransactionId} {tables : Tables}
    (h : PublicationInvariant manifestDigest s) (hlock : s.mutationLock = some t)
    (hconsistent : Consistent manifestDigest tables) (hlinks : LinksStored s.store tables) :
    PublicationInvariant manifestDigest { s.endTransaction t with tables := tables } where
  consistent := hconsistent
  linked := hlinks
  staged := h.staged
  exclusive u hu := by
    simp only [PublicationState.endTransaction] at hu
    split at hu
    · cases hu
    · exact h.exclusive u hu
  transactions u := by
    have hstaging : (s.endTransaction t).stagingLock ≠ some u := by
      simp only [PublicationState.endTransaction]
      split
      · simp
      · by_cases hu : u = t
        · rwa [hu]
        · exact (h.closed_of_ne hlock hu).2
    have hstate : (s.endTransaction t).transactions u = .closed := by
      by_cases hu : u = t
      · subst hu
        exact Function.update_self ..
      · exact (Function.update_of_ne hu _ _).trans (h.closed_of_ne hlock hu).1
    change TransactionInvariant manifestDigest _ u ((s.endTransaction t).transactions u)
    rw [hstate]
    exact ⟨by simp [PublicationState.endTransaction], hstaging⟩

/-- A read inside a staging scope notes an object that is in the store. -/
lemma PublicationInvariant.noteVerified {digest : Sha256} (h : PublicationInvariant manifestDigest s)
    (scope : Option ScopeId) (hstored : (s.store digest).isSome) :
    PublicationInvariant manifestDigest (s.noteVerified scope digest) where
  consistent := h.consistent
  linked := h.linked
  staged k verified hk other hother := by
    simp only [PublicationState.noteVerified] at hk
    split at hk
    · obtain ⟨old, hold, rfl⟩ := Option.map_eq_some_iff.mp hk
      rcases List.mem_cons.mp hother with rfl | hmem
      · exact hstored
      · exact h.staged k old hold other hmem
    · exact h.staged k verified hk other hother
  exclusive t ht k := by
    simp only [PublicationState.noteVerified, h.exclusive t ht k, Option.map_none, ite_self]
  transactions t := (h.transactions t).frame (fun _ hold => hold) Iff.rfl Iff.rfl rfl

/-- Only an object that nobody links or stages is deleted. -/
lemma PublicationInvariant.deleteObject {t : TransactionId} {digest : Sha256} {queued : Bool}
    (h : PublicationInvariant manifestDigest s)
    (hphase : s.transactions t = .collecting (.deleting digest queued)) :
    PublicationInvariant manifestDigest
      { s.setTransaction t (.collecting (.deleted digest queued)) with
        store := Function.update s.store digest none } := by
  have hself := h.transactions t
  rw [hphase] at hself
  obtain ⟨hmutation, hstaging, hunlinked⟩ := hself
  exact {
    consistent := h.consistent
    linked := fun link hlink => by
      have hne := isLinked_eq_false.mp hunlinked link hlink
      have hkept : (Function.update s.store digest none link.objectSha256).isSome := by
        rw [Function.update_of_ne hne]
        exact h.linked link hlink
      exact hkept
    staged := fun k verified hk => by
      have hclosed : s.scopes k = some verified := hk
      rw [h.exclusive t hstaging k] at hclosed
      cases hclosed
    exclusive := h.exclusive
    transactions := fun u => by
      by_cases hu : u = t
      · subst hu
        have hstate : Function.update s.transactions u
            (.collecting (.deleted digest queued)) u = .collecting (.deleted digest queued) :=
          Function.update_self ..
        change TransactionInvariant manifestDigest _ u (Function.update s.transactions u _ u)
        rw [hstate]
        exact ⟨hmutation, hstaging⟩
      · obtain ⟨hidle, hnot⟩ := h.closed_of_ne hmutation hu
        have hstate : Function.update s.transactions t
            (.collecting (.deleted digest queued)) u = .closed :=
          (Function.update_of_ne hu _ _).trans hidle
        change TransactionInvariant manifestDigest _ u (Function.update s.transactions t _ u)
        rw [hstate]
        exact ⟨fun heq => hu (Option.some.inj (heq.symm.trans hmutation)), hnot⟩ }

lemma Collecting.commitTables_consistent {t : Tables} (h : Consistent manifestDigest t)
    (phase : Collecting) : Consistent manifestDigest (phase.commitTables t) := by
  cases phase with
  | retaining digest => exact h.dequeueDeletion digest
  | deleted digest queued =>
    cases queued with
    | true => exact h.deleteObjectRow digest
    | false => exact h
  | mutationLocked | stagingLocked | deleting => exact h

lemma Collecting.commitTables_links (t : Tables) (phase : Collecting) :
    (phase.commitTables t).manifestObjects = t.manifestObjects := by
  cases phase with
  | deleted digest queued => cases queued <;> rfl
  | mutationLocked | stagingLocked | retaining | deleting => rfl

/-- A collector holds the mutation lock, and from then on the staging lock if it got it. -/
lemma PublicationInvariant.collecting {t : TransactionId} {phase : Collecting}
    (h : PublicationInvariant manifestDigest s)
    (hphase : s.transactions t = .collecting phase) :
    s.mutationLock = some t ∧ (phase ≠ .mutationLocked → s.stagingLock = some t) := by
  have hself := h.transactions t
  rw [hphase] at hself
  cases phase with
  | mutationLocked => exact ⟨hself.1, fun hne => absurd rfl hne⟩
  | deleting => exact ⟨hself.1, fun _ => hself.2.1⟩
  | stagingLocked | retaining | deleted => exact ⟨hself.1, fun _ => hself.2⟩

/-- A collector takes the staging lock while no scope is open. -/
lemma PublicationInvariant.tryStagingLock {t : TransactionId}
    (h : PublicationInvariant manifestDigest s)
    (hphase : s.transactions t = .collecting .mutationLocked) (hscopes : ∀ k, s.scopes k = none) :
    PublicationInvariant manifestDigest
      { s.setTransaction t (.collecting .stagingLocked) with stagingLock := some t } where
  consistent := h.consistent
  linked := h.linked
  staged := h.staged
  exclusive _ _ := hscopes
  transactions u := by
    have hmutation := (h.collecting hphase).1
    change TransactionInvariant manifestDigest _ u (Function.update s.transactions t _ u)
    by_cases hu : u = t
    · subst hu
      rw [Function.update_self]
      exact ⟨hmutation, rfl⟩
    · rw [Function.update_of_ne hu, (h.closed_of_ne hmutation hu).1]
      exact ⟨fun heq => hu (Option.some.inj (heq.symm.trans hmutation)),
        fun heq => hu (Option.some.inj heq).symm⟩

lemma publicationInvariant_step (h : PublicationInvariant manifestDigest s)
    (hstep : PublicationStep manifestDigest s event s') :
    PublicationInvariant manifestDigest s' := by
  cases hstep with
  | @openScope k hscope hstaging =>
    refine ⟨h.consistent, h.linked, fun other verified hother => ?_, fun t ht => ?_,
      fun t => (h.transactions t).frame (fun _ hold => hold) Iff.rfl Iff.rfl rfl⟩
    · by_cases hk : other = k
      · subst hk
        simp only [Function.update_self, Option.some.injEq] at hother
        subst hother
        exact fun digest hdigest => absurd hdigest List.not_mem_nil
      · simp only [Function.update_of_ne hk] at hother
        exact h.staged other verified hother
    · rw [hstaging] at ht
      cases ht
  | closeScope k =>
    refine ⟨h.consistent, h.linked, fun other verified hother => ?_, fun t ht other => ?_,
      fun t => (h.transactions t).frame (fun _ hold => hold) Iff.rfl Iff.rfl rfl⟩
    · by_cases hk : other = k
      · subst hk
        simp at hother
      · simp only [Function.update_of_ne hk] at hother
        exact h.staged other verified hother
    · by_cases hk : other = k
      · subst hk
        simp
      · simp only [Function.update_of_ne hk]
        exact h.exclusive t ht other
  | putObject digest size =>
    have hkeeps : Keeps s.store
        (Function.update s.store digest ((s.store digest).getD size)) := by
      intro other hother
      by_cases hdigest : other = digest
      · subst hdigest
        simp
      · rwa [Function.update_of_ne hdigest]
    exact ⟨h.consistent, fun link hlink => hkeeps _ (h.linked link hlink),
      fun k verified hk digest hdigest => hkeeps _ (h.staged k verified hk digest hdigest),
      h.exclusive, fun t => (h.transactions t).frame hkeeps Iff.rfl Iff.rfl rfl⟩
  | stageObject scope digest hstored => exact h.noteVerified scope (by rw [hstored]; rfl)
  | @beginMutation t hclosed hfree =>
    refine h.beginTransaction hfree (fun hstaging => ?_) hclosed
    exact ⟨rfl, hstaging, h.consistent, h.linked, fun r hr => nomatch hr⟩
  | release hwork sha stillReferenced =>
    obtain ⟨hmutation, hstaging, hconsistent, hlinks, -⟩ := h.mutating hwork
    exact h.setTransaction ⟨hmutation, hstaging, hconsistent.releaseManifest sha stillReferenced,
      hlinks.subset releaseManifest_links, fun r hr => nomatch hr⟩
  | expirePayloads hwork hexpire =>
    obtain ⟨hmutation, hstaging, hconsistent, hlinks, -⟩ := h.mutating hwork
    exact h.setTransaction ⟨hmutation, hstaging, hconsistent.expirePayloads hexpire,
      hlinks.subset (expirePayloads_links hexpire), fun r hr => nomatch hr⟩
  | beginRecord hwork m expiring scope hsession hchecks =>
    obtain ⟨hmutation, hstaging, hconsistent, hlinks, -⟩ := h.mutating hwork
    refine h.setTransaction ⟨hmutation, hstaging, hconsistent, hlinks, fun r hr item hitem => ?_⟩
    cases hr
    exact .inl hitem
  | @verifyRecorded t work m expiring scope item left hwork hstored =>
    have hsome : (s.store item.sha256).isSome := by rw [hstored]; rfl
    obtain ⟨hmutation, hstaging, hconsistent, hlinks, hverified⟩ := h.mutating hwork
    refine (h.noteVerified scope hsome).setTransaction
      ⟨hmutation, hstaging, hconsistent, hlinks, fun r hr other hother => ?_⟩
    cases hr
    rcases hverified _ rfl other hother with hleft | hold
    · rcases List.mem_cons.mp hleft with rfl | hleft
      · exact .inr hsome
      · exact .inl hleft
    · exact .inr hold
  | finishRecord hwork hrecord =>
    obtain ⟨hmutation, hstaging, hconsistent, hlinks, hverified⟩ := h.mutating hwork
    refine h.setTransaction ⟨hmutation, hstaging, hconsistent.recordTables hrecord,
      fun link hlink => ?_, fun r hr => nomatch hr⟩
    rcases recordTables_links hrecord link hlink with hold | ⟨item, hitem, hdigest⟩
    · exact hlinks link hold
    · rw [hdigest]
      exact (hverified _ rfl item hitem).resolve_left List.not_mem_nil
  | commitMutation hwork =>
    obtain ⟨hmutation, -, hconsistent, hlinks, -⟩ := h.mutating hwork
    exact h.endTransaction hmutation hconsistent hlinks
  | @beginCollection t hclosed hfree =>
    exact h.beginTransaction hfree (fun hstaging => ⟨rfl, hstaging⟩) hclosed
  | tryStagingLock hphase hfree hscopes => exact h.tryStagingLock hphase hscopes
  | @chooseQueued t digest hphase hqueued =>
    obtain ⟨hmutation, hstaging⟩ := h.collecting hphase
    have hexclusive := hstaging (by simp)
    refine h.setTransaction ?_
    cases hlinked : isLinked s.tables digest with
    | true => exact ⟨hmutation, hexclusive⟩
    | false => exact ⟨hmutation, hexclusive, hlinked⟩
  | @chooseOrphan t digest hphase horphan =>
    obtain ⟨hmutation, hstaging⟩ := h.collecting hphase
    refine h.setTransaction ⟨hmutation, hstaging (by simp), ?_⟩
    rw [isLinked_eq_false]
    rintro link hlink rfl
    have hobject := h.consistent.linkObject link hlink
    rw [horphan] at hobject
    cases hobject
  | deleteObject hphase => exact h.deleteObject hphase
  | @commitCollection t phase hphase =>
    refine h.endTransaction (h.collecting hphase).1 (phase.commitTables_consistent h.consistent) ?_
    exact h.linked.subset fun link hlink => by rwa [phase.commitTables_links] at hlink
  | rollback hopen => exact h.endTransaction hopen h.consistent h.linked

lemma publicationInvariant_initial (h : s.Initial) : PublicationInvariant manifestDigest s where
  consistent := h.tables ▸ consistent_empty
  linked link hlink := by
    rw [h.tables] at hlink
    exact absurd hlink List.not_mem_nil
  staged k verified hk := by
    rw [h.scopes k] at hk
    cases hk
  exclusive _ _ := h.scopes
  transactions t := by
    rw [h.transactions t]
    exact ⟨by simp [h.mutationLock], by simp [h.stagingLock]⟩

lemma publicationInvariant_exec {events : List PublicationEvent} (h : s.Initial)
    (hexec : Exec (PublicationStep manifestDigest) s events s') :
    PublicationInvariant manifestDigest s' :=
  hexec.invariant (fun _ _ _ hinv hstep => publicationInvariant_step hinv hstep)
    (publicationInvariant_initial h)

/-! ### A sample run -/

/-- A report with diagnostic rows that expire. -/
def sampleManifest : Manifest :=
  ⟨"run.result", "run 1", [⟨"report", "application/json", 7, "canonical-json", 3⟩,
    ⟨"rows", "application/vnd.apache.parquet", 8, "canonical-parquet", 4⟩], by simp⟩

def recordedTables : Tables where
  objects := Function.update (Function.update (fun _ => none) 7 (some 3)) 8 (some 4)
  manifests := Function.update (fun _ => none) 5 (some sampleManifest)
  manifestObjects := [⟨5, 0, "report", 7⟩, ⟨5, 1, "rows", 8⟩]
  objectDeletions := []
  payloadRetention := Function.update (fun _ => none) 5 (some ⟨["rows"], false⟩)
  expiredPayloads := []

lemma sample_recorded :
    recordTables (fun _ => 5) .empty sampleManifest ["rows"] = .ok recordedTables := by
  have hverify : verifyRecordedLinks { recordedTables with payloadRetention := fun _ => none } 5
      sampleManifest = .ok () := verifyRecordedLinks_ok.mpr (List.Perm.refl _)
  change (verifyRecordedLinks { recordedTables with payloadRetention := fun _ => none } 5
    sampleManifest >>= fun _ => insertRetention
      { recordedTables with payloadRetention := fun _ => none } 5 ["rows"]) = _
  rw [hverify]
  rfl

def expiredTables : Tables :=
  { recordedTables with
    manifestObjects := [⟨5, 0, "report", 7⟩]
    objectDeletions := [8]
    payloadRetention := Function.update recordedTables.payloadRetention 5 (some ⟨["rows"], true⟩)
    expiredPayloads := [⟨⟨1, "rows", 8, 4⟩, 5⟩] }

/-- Nothing is recorded and the store is empty. -/
def emptyPublication : PublicationState :=
  ⟨fun _ => none, .empty, none, none, fun _ => none, fun _ => .closed⟩

lemma emptyPublication_initial : emptyPublication.Initial :=
  ⟨rfl, rfl, rfl, fun _ => rfl, fun _ => rfl⟩

/-- A publisher stages and records the manifest; later its rows expire. -/
lemma expiry_run : ∃ events s, Exec (PublicationStep fun _ => 5) emptyPublication events s ∧
    s.tables = expiredTables ∧ s.store 7 = some 3 ∧ s.mutationLock = none ∧
    s.stagingLock = none ∧ (∀ k, s.scopes k = none) ∧ s.transactions 2 = .closed := by
  refine ⟨_, _, .cons (.openScope (k := 0) rfl rfl) <| .cons (.putObject 7 3) <|
    .cons (.putObject 8 4) <| .cons (.stageObject (some 0) 7 rfl) <|
    .cons (.beginMutation (t := 0) rfl rfl) <|
    .cons (.beginRecord (t := 0) rfl sampleManifest ["rows"] (some 0) ?_ rfl) <|
    .cons (.verifyRecorded (t := 0) rfl rfl) <| .cons (.verifyRecorded (t := 0) rfl rfl) <|
    .cons (.finishRecord (t := 0) rfl sample_recorded) <| .cons (.commitMutation (t := 0) rfl) <|
    .cons (.closeScope 0) <| .cons (.beginMutation (t := 1) rfl rfl) <|
    .cons (.expirePayloads (t := 1) rfl
      (show expirePayloads recordedTables 5 = .ok expiredTables from rfl)) <|
    .cons (.commitMutation (t := 1) rfl) .nil, rfl, rfl, rfl, rfl, fun k => ?_, rfl⟩
  · intro k hk
    cases hk
    rfl
  · cases k <;> rfl

/-- A collector deletes the expired object. -/
lemma collection_run : ∃ events s, Exec (PublicationStep fun _ => 5) emptyPublication events s ∧
    s.tables = deleteObjectRow expiredTables 8 ∧ s.store 7 = some 3 ∧ s.store 8 = none := by
  obtain ⟨events, s, hrun, htables, hstored, hmutation, hstaging, hscopes, hclosed⟩ := expiry_run
  have hqueued : 8 ∈ s.tables.objectDeletions := by
    rw [htables]
    exact List.mem_singleton_self 8
  have hunlinked : isLinked s.tables 8 = false := by
    rw [htables]
    rfl
  have hdeleting : (if isLinked s.tables 8 then Collecting.retaining 8 else .deleting 8 true)
      = .deleting 8 true := by
    rw [hunlinked]
    rfl
  have hcollected := hrun.trans <| .cons (.beginCollection hclosed hmutation) <|
    .cons (.tryStagingLock (Function.update_self ..) hstaging hscopes) <|
    .cons (.chooseQueued (Function.update_self ..) hqueued) <|
    .cons (.deleteObject ((Function.update_self ..).trans
      (congrArg TransactionState.collecting hdeleting))) <|
    .cons (.commitCollection (t := 2) rfl) .nil
  refine ⟨_, _, hcollected, ?_, ?_, rfl⟩
  · change deleteObjectRow s.tables 8 = _
    rw [htables]
  · have hother : (7 : Sha256) ≠ 8 := by decide
    have hkept : Function.update s.store 8 none 7 = some 3 :=
      (Function.update_of_ne hother _ _).trans hstored
    exact hkept
/-! ### Main results -/

/-- Linked objects, and the objects that an open staging scope verified, are in the store. -/
structure CollectionSafe (s : PublicationState) : Prop where
  linked : ∀ link ∈ s.tables.manifestObjects, (s.store link.objectSha256).isSome
  staged : ∀ k verified, s.scopes k = some verified → ∀ digest ∈ verified,
    (s.store digest).isSome

/-- No interleaving of publishers, expiry and collectors loses an object that a committed manifest
links or that an open staging scope verified. -/
theorem collection_safe {events : List PublicationEvent} (h : s.Initial)
    (hexec : Exec (PublicationStep manifestDigest) s events s') : CollectionSafe s' :=
  have hinv := publicationInvariant_exec h hexec
  ⟨hinv.linked, hinv.staged⟩

theorem collection_safe_sample : ∃ s : PublicationState,
    s.tables = deleteObjectRow expiredTables 8 ∧ s.store 8 = none ∧ CollectionSafe s := by
  obtain ⟨events, s, hrun, htables, -, hdeleted⟩ := collection_run
  exact ⟨s, htables, hdeleted, collection_safe emptyPublication_initial hrun⟩

/-- In every reachable state the inventory of every committed manifest is complete. -/
theorem inventory_holds {events : List PublicationEvent} (h : s.Initial)
    (hexec : Exec (PublicationStep manifestDigest) s events s') :
    InventoryHolds manifestDigest s'.tables :=
  (publicationInvariant_exec h hexec).consistent.inventoryHolds

theorem inventory_holds_sample : ∃ s : PublicationState,
    s.tables = deleteObjectRow expiredTables 8 ∧ InventoryHolds (fun _ => 5) s.tables := by
  obtain ⟨events, s, hrun, htables, -⟩ := collection_run
  exact ⟨s, htables, inventory_holds emptyPublication_initial hrun⟩

end ThesisTrace.Publication
