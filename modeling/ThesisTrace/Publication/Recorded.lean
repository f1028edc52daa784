import ThesisTrace.Publication.CollectionSafety

/-!
# Recorded objects

An object has a row as long as a manifest links it or its deletion is queued. The rows are what the
orphan sweep looks up.
-/

namespace ThesisTrace.Publication
open LabelledTransition Transaction

variable {manifestDigest : Manifest → Sha256} {t t' : Tables} {sha : Sha256} {m : Manifest}
  {s s' : PublicationState} {event : PublicationEvent}

/-- A manifest links the object, or its deletion is queued. -/
def Recorded (t : Tables) (digest : Sha256) : Prop :=
  isLinked t digest = true ∨ digest ∈ t.objectDeletions

/-- The rows of `publication.objects` are those of the recorded objects. -/
def ObjectRows (t : Tables) : Prop :=
  ∀ digest, (t.objects digest).isSome = true ↔ Recorded t digest

lemma isLinked_iff {digest : Sha256} :
    isLinked t digest = true ↔ ∃ link ∈ t.manifestObjects, link.objectSha256 = digest := by
  simp [isLinked]

lemma objectRows_empty : ObjectRows Tables.empty := by
  intro digest
  simp [Tables.empty, Recorded, isLinked]

/-! ### Queued deletions -/

lemma enqueueDeletions_mem (digests : List Sha256) (t : Tables) :
    ∃ queue, digests.foldl enqueueDeletion t = { t with objectDeletions := queue } ∧
      ∀ digest, digest ∈ queue ↔
        digest ∈ t.objectDeletions ∨ digest ∈ digests ∧ isLinked t digest = false := by
  induction digests generalizing t with
  | nil => exact ⟨t.objectDeletions, rfl, by simp⟩
  | cons first digests ih =>
    rw [List.foldl_cons]
    unfold enqueueDeletion
    split
    · next hkept =>
      obtain ⟨queue, hqueue, hmem⟩ := ih t
      refine ⟨queue, hqueue, ?_⟩
      intro digest
      rw [hmem, List.mem_cons]
      constructor
      · rintro (hold | ⟨hnew, hunlinked⟩)
        · exact .inl hold
        · exact .inr ⟨.inr hnew, hunlinked⟩
      · rintro (hold | ⟨rfl | hnew, hunlinked⟩)
        · exact .inl hold
        · rcases hkept with hlinked | hqueued
          · rw [hlinked] at hunlinked
            cases hunlinked
          · exact .inl hqueued
        · exact .inr ⟨hnew, hunlinked⟩
    · next hqueued =>
      obtain ⟨queue, hqueue, hmem⟩ := ih { t with objectDeletions := t.objectDeletions ++ [first] }
      refine ⟨queue, hqueue, ?_⟩
      intro digest
      have hunlinked : isLinked t first = false :=
        (Bool.not_eq_true _).mp fun h => hqueued (.inl h)
      have hsame : isLinked { t with objectDeletions := t.objectDeletions ++ [first] } digest =
          isLinked t digest := rfl
      rw [hmem, hsame, List.mem_append, List.mem_singleton, List.mem_cons]
      constructor
      · rintro ((hold | rfl) | ⟨hnew, h⟩)
        · exact .inl hold
        · exact .inr ⟨.inl rfl, hunlinked⟩
        · exact .inr ⟨.inr hnew, h⟩
      · rintro (hold | ⟨rfl | hnew, h⟩)
        · exact .inl (.inl hold)
        · exact .inl (.inr rfl)
        · exact .inr ⟨hnew, h⟩

/-- Links are removed, and the objects that lose their last one are queued. -/
lemma ObjectRows.unlink {digests : List Sha256} (h : ObjectRows t)
    (hobjects : t'.objects = t.objects) (hqueue : t'.objectDeletions = t.objectDeletions)
    (hlinks : ∀ digest, isLinked t digest = true ↔ isLinked t' digest = true ∨ digest ∈ digests) :
    ObjectRows (digests.foldl enqueueDeletion t') := by
  obtain ⟨queue, heq, hmem⟩ := enqueueDeletions_mem digests t'
  intro digest
  have hlinked : isLinked { t' with objectDeletions := queue } digest = isLinked t' digest := rfl
  rw [heq]
  change (t'.objects digest).isSome = true ↔ isLinked t' digest = true ∨ digest ∈ queue
  rw [hobjects, h digest, Recorded, hlinks, hmem, hqueue]
  cases isLinked t' digest with
  | true => simp
  | false => simp [or_comm]

lemma ObjectRows.releaseManifest (h : ObjectRows t) (sha : Sha256) (stillReferenced : Bool) :
    ObjectRows (releaseManifest t sha stillReferenced) := by
  unfold Publication.releaseManifest
  split
  · exact h
  · apply h.unlink (show (deleteManifest t sha).objects = t.objects from rfl) rfl
    intro digest
    rw [isLinked_iff, isLinked_iff]
    constructor
    · rintro ⟨link, hlink, rfl⟩
      by_cases hsha : link.manifestSha256 = sha
      · exact .inr (List.mem_map_of_mem (List.mem_filter.mpr ⟨hlink, decide_eq_true hsha⟩))
      · exact .inl ⟨link, List.mem_filter.mpr ⟨hlink, decide_eq_true hsha⟩, rfl⟩
    · rintro (⟨link, hlink, rfl⟩ | hremoved)
      · exact ⟨link, List.mem_of_mem_filter hlink, rfl⟩
      · obtain ⟨link, hlink, rfl⟩ := List.mem_map.mp hremoved
        exact ⟨link, List.mem_of_mem_filter hlink, rfl⟩

lemma mem_expiringObjects {names : List String} {digest : Sha256} (h : ObjectRows t) :
    digest ∈ (expiringObjects t sha names).map (fun object => object.objectSha256) ↔
      ∃ link ∈ t.manifestObjects, (link.manifestSha256 = sha ∧ link.logicalName ∈ names) ∧
        link.objectSha256 = digest := by
  simp only [expiringObjects, List.mem_map, List.mem_filterMap, List.mem_filter, linksOf,
    decide_eq_true_eq]
  constructor
  · rintro ⟨_, ⟨row, ⟨link, ⟨⟨hlink, hsha⟩, hname⟩, hjoin⟩, rfl⟩, rfl⟩
    obtain ⟨size, -, rfl⟩ := Option.map_eq_some_iff.mp hjoin
    exact ⟨link, hlink, ⟨hsha, hname⟩, rfl⟩
  · rintro ⟨link, hlink, ⟨hsha, hname⟩, rfl⟩
    have hrow := (h link.objectSha256).mpr (.inl (isLinked_iff.mpr ⟨link, hlink, rfl⟩))
    obtain ⟨size, hsize⟩ := Option.isSome_iff_exists.mp hrow
    exact ⟨_, ⟨_, ⟨link, ⟨⟨hlink, hsha⟩, hname⟩, by rw [joinObject, hsize]; rfl⟩, rfl⟩, rfl⟩

lemma ObjectRows.expirePayloads (h : ObjectRows t) (hexpire : expirePayloads t sha = .ok t') :
    ObjectRows t' := by
  unfold Publication.expirePayloads at hexpire
  simp only [bind_ok_iff, found_ok_iff, require_ok_iff, pure_ok_iff] at hexpire
  obtain ⟨row, -, -, -, -, -, rfl⟩ := hexpire
  apply h.unlink (show (moveToTombstones t sha row.payloadNames).objects = t.objects from rfl) rfl
  intro digest
  rw [mem_expiringObjects h, isLinked_iff, isLinked_iff]
  constructor
  · rintro ⟨link, hlink, rfl⟩
    by_cases hexpired : link.manifestSha256 = sha ∧ link.logicalName ∈ row.payloadNames
    · exact .inr ⟨link, hlink, hexpired, rfl⟩
    · exact .inl ⟨link, List.mem_filter.mpr ⟨hlink, decide_eq_true hexpired⟩, rfl⟩
  · rintro (⟨link, hlink, rfl⟩ | ⟨link, hlink, -, rfl⟩)
    · exact ⟨link, List.mem_of_mem_filter hlink, rfl⟩
    · exact ⟨link, hlink, rfl⟩

/-! ### Recording -/

lemma insertObjects_rows {items : List ManifestObject}
    (h : items.foldlM insertObject t = .ok t') {digest : Sha256}
    (hrow : (t'.objects digest).isSome = true) :
    (t.objects digest).isSome = true ∨ ∃ item ∈ items, item.sha256 = digest := by
  induction items generalizing t with
  | nil =>
    rw [List.foldlM_nil, pure_ok_iff] at h
    subst h
    exact .inl hrow
  | cons item items ih =>
    rw [List.foldlM_cons, bind_ok_iff] at h
    obtain ⟨next, hfirst, hrest⟩ := h
    rcases ih hrest with hold | ⟨other, hother, hdigest⟩
    · unfold insertObject at hfirst
      cases hobject : t.objects item.sha256 with
      | some size =>
        simp only [hobject, map_ok_iff] at hfirst
        obtain ⟨_, -, rfl⟩ := hfirst
        exact .inl hold
      | none =>
        simp only [hobject, Except.ok.injEq] at hfirst
        subst hfirst
        by_cases hdigest : item.sha256 = digest
        · exact .inr ⟨item, List.mem_cons_self, hdigest⟩
        · dsimp only at hold
          rw [Function.update_of_ne (Ne.symm hdigest)] at hold
          exact .inl hold
    · exact .inr ⟨other, List.mem_cons_of_mem _ hother, hdigest⟩

lemma insertObjects_queue {items : List ManifestObject}
    (h : items.foldlM insertObject t = .ok t') : t'.objectDeletions = t.objectDeletions := by
  induction items generalizing t with
  | nil =>
    rw [List.foldlM_nil, pure_ok_iff] at h
    rw [h]
  | cons item items ih =>
    rw [List.foldlM_cons, bind_ok_iff] at h
    obtain ⟨next, hfirst, hrest⟩ := h
    rw [ih hrest]
    unfold insertObject at hfirst
    cases hobject : t.objects item.sha256 with
    | some size =>
      simp only [hobject, map_ok_iff] at hfirst
      obtain ⟨_, -, rfl⟩ := hfirst
      rfl
    | none =>
      simp only [hobject, Except.ok.injEq] at hfirst
      rw [← hfirst]

lemma insertLinks_mono (sha : Sha256) (items : List (ManifestObject × Nat)) (t : Tables) :
    (items.foldl (insertLink sha) t).objectDeletions = t.objectDeletions ∧
      ∀ link ∈ t.manifestObjects, link ∈ (items.foldl (insertLink sha) t).manifestObjects := by
  induction items generalizing t with
  | nil => exact ⟨rfl, fun _ hlink => hlink⟩
  | cons item items ih =>
    obtain ⟨hqueue, hlinks⟩ := ih (insertLink sha t item)
    have hfirst : (insertLink sha t item).objectDeletions = t.objectDeletions ∧
        ∀ link ∈ t.manifestObjects, link ∈ (insertLink sha t item).manifestObjects := by
      unfold insertLink
      split
      · exact ⟨rfl, fun _ hlink => hlink⟩
      · exact ⟨rfl, fun _ hlink => List.mem_append_left _ hlink⟩
    exact ⟨hqueue.trans hfirst.1, fun link hlink => hlinks link (hfirst.2 link hlink)⟩

lemma insertManifest_queue (h : insertManifest t sha m = .ok t') :
    t'.objectDeletions = t.objectDeletions ∧ t'.expiredPayloads = t.expiredPayloads := by
  unfold insertManifest at h
  cases hstored : t.manifests sha with
  | none =>
    simp only [hstored, Except.ok.injEq] at h
    subst h
    exact ⟨rfl, rfl⟩
  | some stored =>
    simp only [hstored, map_ok_iff] at h
    obtain ⟨_, -, rfl⟩ := h
    exact ⟨rfl, rfl⟩

/-- The inventory check makes sure that every inserted object is linked. -/
lemma linked_of_inventory {item : ManifestObject} (hitem : item ∈ m.objects)
    (hcomplete : (inventory t sha).Perm (expectedRows m))
    (hexpired : ∀ row ∈ t.expiredPayloads, row.manifestSha256 ≠ sha) :
    isLinked t item.sha256 = true := by
  have hnone : expiredRows t sha = [] := by
    rw [expiredRows, List.map_eq_nil_iff, List.filter_eq_nil_iff]
    intro row hrow
    simpa using hexpired row hrow
  obtain ⟨i, hi, rfl⟩ := List.getElem_of_mem hitem
  have hexpected : (⟨i, m.objects[i].name, m.objects[i].sha256, m.objects[i].byteSize⟩ :
      InventoryRow) ∈ expectedRows m := by
    refine List.mem_map.mpr ⟨(m.objects[i], i), ?_, rfl⟩
    rw [List.mem_zipIdx_iff_getElem?, List.getElem?_eq_getElem hi]
  have hlive := hcomplete.mem_iff.mpr hexpected
  rw [inventory, hnone, List.append_nil, liveRows, List.mem_filterMap] at hlive
  obtain ⟨link, hlink, hjoin⟩ := hlive
  obtain ⟨size, -, hrow⟩ := Option.map_eq_some_iff.mp hjoin
  rw [isLinked_iff]
  exact ⟨link, List.mem_of_mem_filter hlink, congrArg InventoryRow.objectSha256 hrow⟩

lemma ObjectRows.recordTables {expiring : List String} (h : ObjectRows t)
    (hchecks : recordChecks manifestDigest t m expiring = .ok ())
    (hrecord : recordTables manifestDigest t m expiring = .ok t') : ObjectRows t' := by
  simp only [recordChecks, bind_ok_iff, require_ok_iff] at hchecks
  obtain ⟨-, -, hexpired⟩ := hchecks
  unfold Publication.recordTables at hrecord
  simp only [bind_ok_iff] at hrecord
  obtain ⟨t₁, hobjects, t₂, hmanifest, _, hverify, hretention⟩ := hrecord
  obtain ⟨hextends₁, hlinks₁, -, hrecorded⟩ := insertObjects_spec (manifestDigest m) hobjects
  obtain ⟨-, hlinks₂, hobjects₂, -⟩ := insertManifest_spec hmanifest
  obtain ⟨hqueue₂, hexpired₂⟩ := insertManifest_queue hmanifest
  obtain ⟨hextends₃, hobjects₃, -, hlinks₃⟩ :=
    insertLinks_spec (manifestDigest m) m.objects.zipIdx t₂
  obtain ⟨hqueue₃, hmono₃⟩ := insertLinks_mono (manifestDigest m) m.objects.zipIdx t₂
  obtain ⟨retention, rfl⟩ := insertRetention_spec hretention
  have hcomplete := verifyRecordedLinks_ok.mp hverify
  set t₃ := m.objects.zipIdx.foldl (insertLink (manifestDigest m)) t₂
  have hqueue : t₃.objectDeletions = t.objectDeletions := by
    rw [hqueue₃, hqueue₂, insertObjects_queue hobjects]
  have hsame : t₃.objects = t₁.objects := by rw [hobjects₃, hobjects₂]
  have hunexpired : ∀ row ∈ t₃.expiredPayloads, row.manifestSha256 ≠ manifestDigest m := by
    rw [hextends₃.expired, hexpired₂, hextends₁.expired]
    exact hexpired
  intro digest
  change (t₃.objects digest).isSome = true ↔ isLinked t₃ digest = true ∨ digest ∈ t₃.objectDeletions
  rw [hsame, hqueue]
  constructor
  · intro hrow
    rcases insertObjects_rows hobjects hrow with hold | ⟨item, hitem, rfl⟩
    · rcases (h digest).mp hold with hlinked | hqueued
      · obtain ⟨link, hlink, hdigest⟩ := isLinked_iff.mp hlinked
        have hlink₂ : link ∈ t₂.manifestObjects := by rwa [hlinks₂, hlinks₁]
        exact .inl (isLinked_iff.mpr ⟨link, hmono₃ link hlink₂, hdigest⟩)
      · exact .inr hqueued
    · exact .inl (linked_of_inventory hitem hcomplete hunexpired)
  · rintro (hlinked | hqueued)
    · obtain ⟨link, hlink, rfl⟩ := isLinked_iff.mp hlinked
      rcases hlinks₃ link hlink with hold | ⟨item, hitem, hdigest⟩
      · rw [hlinks₂, hlinks₁] at hold
        obtain ⟨size, hsize⟩ := Option.isSome_iff_exists.mp
          ((h link.objectSha256).mpr (.inl (isLinked_iff.mpr ⟨link, hold, rfl⟩)))
        rw [hextends₁.objects _ _ hsize]
        rfl
      · rw [hdigest, hrecorded item.1 (List.fst_mem_of_mem_zipIdx hitem)]
        rfl
    · obtain ⟨size, hsize⟩ := Option.isSome_iff_exists.mp ((h digest).mpr (.inr hqueued))
      rw [hextends₁.objects _ _ hsize]
      rfl

/-! ### Collecting -/

lemma ObjectRows.dequeueDeletion (h : ObjectRows t) {digest : Sha256}
    (hlinked : isLinked t digest = true) : ObjectRows (dequeueDeletion t digest) := by
  intro other
  change (t.objects other).isSome = true ↔ isLinked t other = true ∨
    other ∈ t.objectDeletions.filter fun queued => queued ≠ digest
  rw [h other, Recorded, List.mem_filter, decide_eq_true_eq]
  by_cases hother : other = digest
  · simp [hother, hlinked]
  · simp [hother]

lemma ObjectRows.deleteObjectRow (h : ObjectRows t) (digest : Sha256) :
    ObjectRows (deleteObjectRow t digest) := by
  cases hlinked : isLinked t digest with
  | true =>
    have heq : Publication.deleteObjectRow t digest = Publication.dequeueDeletion t digest := by
      simp [Publication.deleteObjectRow, hlinked, Publication.dequeueDeletion]
    rw [heq]
    exact h.dequeueDeletion hlinked
  | false =>
    intro other
    have hrows : (Publication.deleteObjectRow t digest).objects =
        Function.update t.objects digest none := by
      simp [Publication.deleteObjectRow, hlinked]
    rw [hrows]
    change (Function.update t.objects digest none other).isSome = true ↔
      isLinked t other = true ∨ other ∈ t.objectDeletions.filter fun queued => queued ≠ digest
    rw [List.mem_filter, decide_eq_true_eq]
    by_cases hother : other = digest
    · subst hother
      simp [hlinked]
    · rw [Function.update_of_ne hother, h other, Recorded]
      simp [hother]

/-! ### Every reachable state -/

/-- What an open transaction knows of the rows. -/
def RowsKnown (manifestDigest : Manifest → Sha256) (t : Tables) : TransactionState → Prop
  | .closed => True
  | .mutating work recording => ObjectRows work ∧ ∀ r, recording = some r →
      recordChecks manifestDigest work r.manifest r.expiring = .ok ()
  | .collecting (.retaining digest) => isLinked t digest = true
  | .collecting _ => True

structure RowsInvariant (manifestDigest : Manifest → Sha256) (s : PublicationState) : Prop where
  rows : ObjectRows s.tables
  transactions : ∀ t, RowsKnown manifestDigest s.tables (s.transactions t)

lemma RowsInvariant.setTransaction {t : TransactionId} {state : TransactionState}
    (h : RowsInvariant manifestDigest s) (hself : RowsKnown manifestDigest s.tables state) :
    ∀ u, RowsKnown manifestDigest s.tables (Function.update s.transactions t state u) := by
  intro u
  by_cases hu : u = t
  · subst hu
    rw [Function.update_self]
    exact hself
  · rw [Function.update_of_ne hu]
    exact h.transactions u

/-- The end of a transaction may change the tables, for nobody else is at work. -/
lemma RowsInvariant.endTransaction {t : TransactionId} {tables : Tables}
    (hpublication : PublicationInvariant manifestDigest s) (hlock : s.mutationLock = some t)
    (hrows : ObjectRows tables) :
    RowsInvariant manifestDigest { s.endTransaction t with tables := tables } where
  rows := hrows
  transactions u := by
    have hclosed : (s.endTransaction t).transactions u = .closed := by
      by_cases hu : u = t
      · subst hu
        exact Function.update_self ..
      · exact (Function.update_of_ne hu _ _).trans (hpublication.closed_of_ne hlock hu).1
    change RowsKnown manifestDigest tables ((s.endTransaction t).transactions u)
    rw [hclosed]
    trivial

lemma rowsInvariant_step (hpublication : PublicationInvariant manifestDigest s)
    (h : RowsInvariant manifestDigest s) (hstep : PublicationStep manifestDigest s event s') :
    RowsInvariant manifestDigest s' := by
  have hwork {t : TransactionId} {work : Tables} {recording : Option Recording}
      (hstate : s.transactions t = .mutating work recording) :
      RowsKnown manifestDigest s.tables (.mutating work recording) := hstate ▸ h.transactions t
  cases hstep with
  | openScope | closeScope | putObject | stageObject => exact ⟨h.rows, h.transactions⟩
  | beginMutation => exact ⟨h.rows, h.setTransaction ⟨h.rows, fun r hr => nomatch hr⟩⟩
  | release hstate sha stillReferenced =>
    exact ⟨h.rows, h.setTransaction ⟨(hwork hstate).1.releaseManifest sha stillReferenced,
      fun r hr => nomatch hr⟩⟩
  | expirePayloads hstate hexpire =>
    exact ⟨h.rows, h.setTransaction ⟨(hwork hstate).1.expirePayloads hexpire,
      fun r hr => nomatch hr⟩⟩
  | beginRecord hstate m expiring scope hsession hchecks =>
    refine ⟨h.rows, h.setTransaction ⟨(hwork hstate).1, ?_⟩⟩
    intro r hr
    cases hr
    exact hchecks
  | verifyRecorded hstate hstored =>
    refine ⟨h.rows, h.setTransaction ⟨(hwork hstate).1, ?_⟩⟩
    intro r hr
    have hchecks := (hwork hstate).2 _ rfl
    cases hr
    exact hchecks
  | finishRecord hstate hrecord =>
    obtain ⟨hrows, hchecks⟩ := hwork hstate
    exact ⟨h.rows, h.setTransaction ⟨hrows.recordTables (hchecks _ rfl) hrecord,
      fun r hr => nomatch hr⟩⟩
  | commitMutation hstate =>
    exact .endTransaction hpublication (hpublication.mutating hstate).1 (hwork hstate).1
  | beginCollection => exact ⟨h.rows, h.setTransaction trivial⟩
  | tryStagingLock => exact ⟨h.rows, h.setTransaction trivial⟩
  | @chooseQueued t digest hphase hqueued =>
    refine ⟨h.rows, h.setTransaction ?_⟩
    cases hlinked : isLinked s.tables digest with
    | true => exact hlinked
    | false => trivial
  | chooseOrphan => exact ⟨h.rows, h.setTransaction trivial⟩
  | deleteObject => exact ⟨h.rows, h.setTransaction trivial⟩
  | @commitCollection t phase hphase =>
    apply RowsInvariant.endTransaction hpublication (hpublication.collecting hphase).1
    have hknown := h.transactions t
    rw [hphase] at hknown
    cases phase with
    | retaining digest => exact h.rows.dequeueDeletion hknown
    | deleted digest queued =>
      cases queued with
      | true => exact h.rows.deleteObjectRow digest
      | false => exact h.rows
    | mutationLocked | stagingLocked | deleting => exact h.rows
  | rollback hopen => exact .endTransaction hpublication hopen h.rows

lemma rowsInvariant_initial (h : s.Initial) : RowsInvariant manifestDigest s where
  rows := h.tables ▸ objectRows_empty
  transactions t := by
    rw [h.transactions t]
    trivial

end ThesisTrace.Publication
