import ThesisTrace.Publication.Tables
import Mathlib.Data.List.Nodup

/-!
# Every committed manifest keeps its inventory

In every committed state of the tables the live links and the tombstones of a manifest are exactly
the objects that it names. Each transaction keeps this for all manifests.
-/

namespace ThesisTrace.Publication
open Transaction

variable {manifestDigest : Manifest → Sha256} {t t' t'' : Tables} {sha : Sha256} {m : Manifest}

/-! ### Sorted rows -/

/-- Rows whose keys increase are the sorted form of every rearrangement of them. -/
lemma mergeSort_eq_iff_perm {α : Type*} (key : α → Nat) {rows sorted : List α}
    (hsorted : sorted.Pairwise fun a b => key a < key b) :
    (rows.mergeSort fun a b => key a ≤ key b) = sorted ↔ rows.Perm sorted := by
  have hperm := List.mergeSort_perm rows fun a b => decide (key a ≤ key b)
  constructor
  · intro h
    exact hperm.symm.trans (h ▸ List.Perm.refl _)
  · intro h
    have hmerged : (rows.mergeSort fun a b => decide (key a ≤ key b)).Pairwise
        fun a b => decide (key a ≤ key b) := by
      apply List.pairwise_mergeSort
      · intro a b c hab hbc
        simp only [decide_eq_true_eq] at hab hbc ⊢
        omega
      · intro a b
        simp only [Bool.or_eq_true, decide_eq_true_eq]
        omega
    have hle : sorted.Pairwise fun a b => decide (key a ≤ key b) = true :=
      hsorted.imp fun hab => by simpa using Nat.le_of_lt hab
    have hkeys : (sorted.map key).Nodup :=
      List.pairwise_map.mpr (hsorted.imp fun hab => Nat.ne_of_lt hab)
    refine List.Perm.eq_of_pairwise (fun a b ha hb hab hba => ?_) hmerged hle (hperm.trans h)
    have hmem : a ∈ sorted := h.mem_iff.mp (hperm.mem_iff.mp ha)
    refine List.inj_on_of_nodup_map hkeys hmem hb ?_
    simp only [decide_eq_true_eq] at hab hba
    omega

lemma expectedRows_sorted (m : Manifest) :
    (expectedRows m).Pairwise fun a b => a.ordinal < b.ordinal := by
  refine List.pairwise_map.mpr ?_
  have hordinals : (m.objects.zipIdx.map Prod.snd).Pairwise (· < ·) := by
    rw [List.zipIdx_map_snd]
    exact List.pairwise_lt_range'
  exact List.pairwise_map.mp hordinals

lemma verifyRecordedLinks_ok :
    verifyRecordedLinks t sha m = .ok () ↔ (inventory t sha).Perm (expectedRows m) := by
  unfold verifyRecordedLinks sortByOrdinal
  rw [require_ok_iff]
  exact mergeSort_eq_iff_perm InventoryRow.ordinal (expectedRows_sorted m)

/-! ### The invariant -/

/-- What every committed state of the tables keeps. -/
structure Consistent (manifestDigest : Manifest → Sha256) (t : Tables) : Prop where
  linkObject : ∀ link ∈ t.manifestObjects, (t.objects link.objectSha256).isSome
  checksum : ∀ sha m, t.manifests sha = some m → manifestDigest m = sha
  complete : ∀ sha m, t.manifests sha = some m → (inventory t sha).Perm (expectedRows m)

lemma consistent_empty : Consistent manifestDigest Tables.empty where
  linkObject _ h := absurd h List.not_mem_nil
  checksum _ _ h := by cases h
  complete _ _ h := by cases h

/-- An inventory does not depend on the rows of other manifests. -/
lemma inventory_congr (hlinks : linksOf t' sha = linksOf t sha)
    (hobjects : ∀ link ∈ linksOf t sha, t'.objects link.objectSha256 = t.objects link.objectSha256)
    (hexpired : (t'.expiredPayloads.filter fun row => row.manifestSha256 = sha) =
      t.expiredPayloads.filter fun row => row.manifestSha256 = sha) :
    inventory t' sha = inventory t sha := by
  unfold inventory liveRows expiredRows
  rw [hlinks, hexpired]
  congr 1
  refine List.filterMap_congr fun link hlink => ?_
  unfold joinObject
  rw [hobjects link hlink]

/-! ### Queued deletions -/

lemma enqueueDeletions_eq (digests : List Sha256) (t : Tables) :
    ∃ queue, digests.foldl enqueueDeletion t = { t with objectDeletions := queue } := by
  induction digests generalizing t with
  | nil => exact ⟨t.objectDeletions, rfl⟩
  | cons digest digests ih =>
    rw [List.foldl_cons]
    unfold enqueueDeletion
    split
    · exact ih t
    · exact ih _

lemma Consistent.queue (h : Consistent manifestDigest t) (queue : List Sha256) :
    Consistent manifestDigest { t with objectDeletions := queue } :=
  ⟨h.linkObject, h.checksum, h.complete⟩

lemma Consistent.dequeueDeletion (h : Consistent manifestDigest t) (digest : Sha256) :
    Consistent manifestDigest (dequeueDeletion t digest) :=
  h.queue _

lemma isLinked_eq_false {digest : Sha256} : isLinked t digest = false ↔
    ∀ link ∈ t.manifestObjects, link.objectSha256 ≠ digest := by
  simp [isLinked]

/-- Only an object without links loses its row. -/
lemma deleteObjectRow_objects {digest : Sha256} {link : ObjectLink}
    (hlink : link ∈ t.manifestObjects) :
    (deleteObjectRow t digest).objects link.objectSha256 = t.objects link.objectSha256 := by
  unfold deleteObjectRow
  cases hlinked : isLinked t digest with
  | true => rfl
  | false =>
    have hother := isLinked_eq_false.mp hlinked link hlink
    simp [Function.update_of_ne hother]

lemma Consistent.deleteObjectRow (h : Consistent manifestDigest t) (digest : Sha256) :
    Consistent manifestDigest (deleteObjectRow t digest) where
  linkObject link hlink := by
    have hold : link ∈ t.manifestObjects := hlink
    rw [deleteObjectRow_objects hold]
    exact h.linkObject link hold
  checksum := h.checksum
  complete sha m hm := by
    have hinventory : inventory (Publication.deleteObjectRow t digest) sha = inventory t sha :=
      inventory_congr rfl (fun link hlink =>
        deleteObjectRow_objects (List.mem_of_mem_filter hlink)) rfl
    rw [hinventory]
    exact h.complete sha m hm

/-! ### Releasing a manifest -/

/-- The selected rows are among those that stay. -/
lemma filter_filter_of_imp {α : Type*} {p q : α → Bool} (h : ∀ row, p row = true → q row = true)
    (rows : List α) : (rows.filter q).filter p = rows.filter p := by
  rw [List.filter_filter]
  refine List.filter_congr fun row _ => ?_
  cases hrow : p row with
  | true => rw [h row hrow, Bool.and_self]
  | false => rfl

/-- Only the rows of the deleted manifest are gone. -/
lemma Consistent.deleteManifest (h : Consistent manifestDigest t) (sha : Sha256) :
    Consistent manifestDigest (deleteManifest t sha) := by
  have hkept : ∀ other m, (Publication.deleteManifest t sha).manifests other = some m →
      other ≠ sha ∧ t.manifests other = some m := by
    intro other m hm
    simp only [Publication.deleteManifest] at hm
    by_cases hother : other = sha
    · simp [hother] at hm
    · rw [Function.update_of_ne hother] at hm
      exact ⟨hother, hm⟩
  exact {
    linkObject := fun link hlink => h.linkObject link (List.mem_of_mem_filter hlink)
    checksum := fun other m hm => h.checksum other m (hkept other m hm).2
    complete := fun other m hm => by
      obtain ⟨hother, hold⟩ := hkept other m hm
      have hinventory : inventory (Publication.deleteManifest t sha) other = inventory t other := by
        refine inventory_congr (filter_filter_of_imp (fun link hlink => ?_) _) (fun _ _ => rfl)
          (filter_filter_of_imp (fun row hrow => ?_) _)
        · simpa [of_decide_eq_true hlink] using hother
        · simpa [of_decide_eq_true hrow] using hother
      rw [hinventory]
      exact h.complete other m hold }

lemma Consistent.releaseManifest (h : Consistent manifestDigest t) (sha : Sha256)
    (stillReferenced : Bool) :
    Consistent manifestDigest (releaseManifest t sha stillReferenced) := by
  unfold Publication.releaseManifest
  cases stillReferenced with
  | true => exact h
  | false =>
    obtain ⟨queue, hqueue⟩ := enqueueDeletions_eq ((linksOf t sha).map ObjectLink.objectSha256)
      (Publication.deleteManifest t sha)
    rw [if_neg Bool.false_ne_true, hqueue]
    exact (h.deleteManifest sha).queue queue

/-! ### Expiring payloads -/

lemma linksOf_moved (names : List String) : linksOf (moveToTombstones t sha names) sha
    = (linksOf t sha).filter fun link => !decide (link.logicalName ∈ names) := by
  unfold linksOf moveToTombstones
  rw [List.filter_filter, List.filter_filter]
  refine List.filter_congr fun link _ => ?_
  by_cases hlink : link.manifestSha256 = sha
  · simp [hlink]
  · simp [hlink]

lemma expiredRows_moved (names : List String) : expiredRows (moveToTombstones t sha names) sha
    = expiredRows t sha ++
      ((linksOf t sha).filter fun link => link.logicalName ∈ names).filterMap (joinObject t) := by
  have hall : ((expiringObjects t sha names).filter fun row => row.manifestSha256 = sha)
      = expiringObjects t sha names := by
    rw [List.filter_eq_self]
    intro row hrow
    obtain ⟨live, -, rfl⟩ := List.mem_map.mp hrow
    simp
  unfold expiredRows moveToTombstones
  rw [List.filter_append, List.map_append, hall]
  unfold expiringObjects
  rw [List.map_map]
  simp [Function.comp_def]

/-- The expired links keep their rows as tombstones. -/
lemma inventory_moved (names : List String) :
    (inventory (moveToTombstones t sha names) sha).Perm (inventory t sha) := by
  have hsplit := (List.filter_append_perm (fun link => decide (link.logicalName ∈ names))
    (linksOf t sha)).filterMap (joinObject t)
  rw [List.filterMap_append] at hsplit
  have hlive : liveRows (moveToTombstones t sha names) sha
      = ((linksOf t sha).filter fun link => !decide (link.logicalName ∈ names)).filterMap
        (joinObject t) := by
    unfold liveRows
    rw [linksOf_moved]
    rfl
  unfold inventory
  rw [hlive, expiredRows_moved]
  refine (List.perm_append_comm.append_left _).trans ?_
  rw [← List.append_assoc]
  exact (List.perm_append_comm.trans hsplit).append_right _

lemma Consistent.moveToTombstones (h : Consistent manifestDigest t) (sha : Sha256)
    (names : List String) : Consistent manifestDigest (moveToTombstones t sha names) where
  linkObject link hlink := h.linkObject link (List.mem_of_mem_filter hlink)
  checksum := h.checksum
  complete other m hm := by
    have hold : t.manifests other = some m := hm
    by_cases hother : other = sha
    · subst hother
      exact (inventory_moved names).trans (h.complete other m hold)
    · -- the rows of another manifest stay as they are
      have hnew : ((expiringObjects t sha names).filter fun row => row.manifestSha256 = other)
          = [] := by
        rw [List.filter_eq_nil_iff]
        intro row hrow
        obtain ⟨live, -, rfl⟩ := List.mem_map.mp hrow
        simpa using fun heq => hother heq.symm
      have hinventory : inventory (Publication.moveToTombstones t sha names) other
          = inventory t other := by
        refine inventory_congr (filter_filter_of_imp (fun link hlink => ?_) _) (fun _ _ => rfl) ?_
        · simp [of_decide_eq_true hlink, hother]
        · simp only [Publication.moveToTombstones]
          rw [List.filter_append, hnew, List.append_nil]
      rw [hinventory]
      exact h.complete other m hold

lemma Consistent.expirePayloads (h : Consistent manifestDigest t)
    (hexpire : expirePayloads t sha = .ok t') : Consistent manifestDigest t' := by
  unfold Publication.expirePayloads at hexpire
  simp only [bind_ok_iff, found_ok_iff, require_ok_iff, pure_ok_iff] at hexpire
  obtain ⟨row, -, -, -, -, -, rfl⟩ := hexpire
  obtain ⟨queue, hqueue⟩ := enqueueDeletions_eq
    ((expiringObjects t sha row.payloadNames).map fun object => object.objectSha256)
    (Publication.moveToTombstones t sha row.payloadNames)
  rw [hqueue]
  exact (h.moveToTombstones sha row.payloadNames).queue queue

/-! ### Recording a manifest -/

/-- The inserts of a record leave the rows of other manifests alone. -/
structure Extends (sha : Sha256) (t t' : Tables) : Prop where
  objects : ∀ digest size, t.objects digest = some size → t'.objects digest = some size
  manifests : ∀ other, other ≠ sha → t'.manifests other = t.manifests other
  links : ∀ other, other ≠ sha → linksOf t' other = linksOf t other
  expired : t'.expiredPayloads = t.expiredPayloads

lemma Extends.refl (sha : Sha256) (t : Tables) : Extends sha t t :=
  ⟨fun _ _ h => h, fun _ _ => rfl, fun _ _ => rfl, rfl⟩

lemma Extends.trans (h : Extends sha t t') (h' : Extends sha t' t'') : Extends sha t t'' where
  objects digest size hold := h'.objects digest size (h.objects digest size hold)
  manifests other hother := (h'.manifests other hother).trans (h.manifests other hother)
  links other hother := (h'.links other hother).trans (h.links other hother)
  expired := h'.expired.trans h.expired

lemma insertObject_spec (sha : Sha256) {item : ManifestObject} (h : insertObject t item = .ok t') :
    Extends sha t t' ∧ t'.manifestObjects = t.manifestObjects ∧ t'.manifests = t.manifests ∧
      t'.objects item.sha256 = some item.byteSize := by
  unfold insertObject at h
  cases hobject : t.objects item.sha256 with
  | none =>
    simp only [hobject, Except.ok.injEq] at h
    subst h
    refine ⟨⟨fun digest size hold => ?_, fun _ _ => rfl, fun _ _ => rfl, rfl⟩, rfl, rfl,
      Function.update_self ..⟩
    have hne : digest ≠ item.sha256 := by
      rintro rfl
      rw [hobject] at hold
      cases hold
    exact (Function.update_of_ne hne _ _).trans hold
  | some size =>
    simp only [hobject, map_ok_iff, require_ok_iff] at h
    obtain ⟨_, rfl, rfl⟩ := h
    exact ⟨.refl _ _, rfl, rfl, hobject⟩

/-- The first loop of a record. -/
lemma insertObjects_spec (sha : Sha256) {items : List ManifestObject}
    (h : items.foldlM insertObject t = .ok t') :
    Extends sha t t' ∧ t'.manifestObjects = t.manifestObjects ∧ t'.manifests = t.manifests ∧
      ∀ item ∈ items, t'.objects item.sha256 = some item.byteSize := by
  induction items generalizing t with
  | nil =>
    rw [List.foldlM_nil, pure_ok_iff] at h
    subst h
    exact ⟨.refl _ _, rfl, rfl, fun _ hitem => absurd hitem List.not_mem_nil⟩
  | cons item items ih =>
    rw [List.foldlM_cons, bind_ok_iff] at h
    obtain ⟨next, hfirst, hrest⟩ := h
    obtain ⟨hextends, hlinks, hmanifests, hobject⟩ := insertObject_spec sha hfirst
    obtain ⟨hextends', hlinks', hmanifests', hobjects⟩ := ih hrest
    refine ⟨hextends.trans hextends', hlinks'.trans hlinks, hmanifests'.trans hmanifests, ?_⟩
    intro other hother
    rcases List.mem_cons.mp hother with rfl | hother
    · exact hextends'.objects _ _ hobject
    · exact hobjects other hother

lemma insertManifest_spec (h : insertManifest t sha m = .ok t') :
    Extends sha t t' ∧ t'.manifestObjects = t.manifestObjects ∧ t'.objects = t.objects ∧
      t'.manifests sha = some m := by
  unfold insertManifest at h
  cases hstored : t.manifests sha with
  | none =>
    simp only [hstored, Except.ok.injEq] at h
    subst h
    exact ⟨⟨fun _ _ hold => hold, fun other hother => Function.update_of_ne hother _ _,
      fun _ _ => rfl, rfl⟩, rfl, rfl, Function.update_self ..⟩
  | some stored =>
    simp only [hstored, map_ok_iff, require_ok_iff] at h
    obtain ⟨_, rfl, rfl⟩ := h
    exact ⟨.refl _ _, rfl, rfl, hstored⟩

lemma insertLink_spec (sha : Sha256) (t : Tables) (item : ManifestObject × Nat) :
    Extends sha t (insertLink sha t item) ∧ (insertLink sha t item).objects = t.objects ∧
      (insertLink sha t item).manifests = t.manifests ∧
      ∀ link ∈ (insertLink sha t item).manifestObjects,
        link ∈ t.manifestObjects ∨ link.objectSha256 = item.1.sha256 := by
  unfold insertLink
  split
  · exact ⟨.refl _ _, rfl, rfl, fun link hlink => .inl hlink⟩
  · refine ⟨⟨fun _ _ hold => hold, fun _ _ => rfl, fun other hother => ?_, rfl⟩, rfl, rfl,
      fun link hlink => ?_⟩
    · simp [linksOf, List.filter_append, hother.symm]
    · rcases List.mem_append.mp hlink with hold | hnew
      · exact .inl hold
      · rw [List.mem_singleton.mp hnew]
        exact .inr rfl

/-- The second loop of a record. -/
lemma insertLinks_spec (sha : Sha256) (items : List (ManifestObject × Nat)) (t : Tables) :
    Extends sha t (items.foldl (insertLink sha) t) ∧
      (items.foldl (insertLink sha) t).objects = t.objects ∧
      (items.foldl (insertLink sha) t).manifests = t.manifests ∧
      ∀ link ∈ (items.foldl (insertLink sha) t).manifestObjects,
        link ∈ t.manifestObjects ∨ ∃ item ∈ items, link.objectSha256 = item.1.sha256 := by
  induction items generalizing t with
  | nil => exact ⟨.refl _ _, rfl, rfl, fun link hlink => .inl hlink⟩
  | cons item items ih =>
    rw [List.foldl_cons]
    obtain ⟨hextends, hobjects, hmanifests, hlinks⟩ := insertLink_spec sha t item
    obtain ⟨hextends', hobjects', hmanifests', hlinks'⟩ := ih (insertLink sha t item)
    refine ⟨hextends.trans hextends', hobjects'.trans hobjects, hmanifests'.trans hmanifests,
      fun link hlink => ?_⟩
    rcases hlinks' link hlink with hold | ⟨other, hother, hdigest⟩
    · rcases hlinks link hold with hold | hdigest
      · exact .inl hold
      · exact .inr ⟨item, List.mem_cons_self, hdigest⟩
    · exact .inr ⟨other, List.mem_cons_of_mem _ hother, hdigest⟩

lemma insertRetention_spec {expiring : List String} (h : insertRetention t sha expiring = .ok t') :
    ∃ retention, t' = { t with payloadRetention := retention } := by
  unfold insertRetention at h
  split at h
  · cases h
    exact ⟨t.payloadRetention, rfl⟩
  · cases hrow : t.payloadRetention sha with
    | none =>
      simp only [hrow, Except.ok.injEq] at h
      exact ⟨_, h.symm⟩
    | some row =>
      simp only [hrow, map_ok_iff] at h
      obtain ⟨_, -, rfl⟩ := h
      exact ⟨t.payloadRetention, rfl⟩

/-- A record that passes its own inventory check keeps every inventory. -/
lemma Consistent.recordTables {expiring : List String} (h : Consistent manifestDigest t)
    (hrecord : recordTables manifestDigest t m expiring = .ok t') :
    Consistent manifestDigest t' := by
  unfold Publication.recordTables at hrecord
  simp only [bind_ok_iff] at hrecord
  obtain ⟨t₁, hobjects, t₂, hmanifest, _, hverify, hretention⟩ := hrecord
  obtain ⟨hextends₁, hlinks₁, hmanifests₁, hrecorded⟩ :=
    insertObjects_spec (manifestDigest m) hobjects
  obtain ⟨hextends₂, hlinks₂, hobjects₂, hstored⟩ := insertManifest_spec hmanifest
  obtain ⟨hextends₃, hobjects₃, hmanifests₃, hlinks₃⟩ :=
    insertLinks_spec (manifestDigest m) m.objects.zipIdx t₂
  obtain ⟨retention, rfl⟩ := insertRetention_spec hretention
  have hextends := (hextends₁.trans hextends₂).trans hextends₃
  have hcomplete := verifyRecordedLinks_ok.mp hverify
  set t₃ := m.objects.zipIdx.foldl (insertLink (manifestDigest m)) t₂
  have hlinked : ∀ link ∈ t.manifestObjects, t₃.objects link.objectSha256
      = t.objects link.objectSha256 := by
    intro link hlink
    obtain ⟨size, hsize⟩ := Option.isSome_iff_exists.mp (h.linkObject link hlink)
    rw [hsize]
    exact hextends.objects _ _ hsize
  have hmanifest₃ : t₃.manifests (manifestDigest m) = some m := by
    rw [hmanifests₃]
    exact hstored
  exact {
    linkObject := fun link hlink => by
      rcases hlinks₃ link hlink with hold | ⟨item, hitem, hdigest⟩
      · rw [hlinks₂, hlinks₁] at hold
        rw [hlinked link hold]
        exact h.linkObject link hold
      · have hmem : item.1 ∈ m.objects := List.fst_mem_of_mem_zipIdx hitem
        rw [hobjects₃, hobjects₂, hdigest, hrecorded item.1 hmem]
        rfl
    checksum := fun other m' hm => by
      by_cases hother : other = manifestDigest m
      · have heq : m = m' := Option.some.inj (hmanifest₃.symm.trans (hother ▸ hm))
        rw [hother, heq]
      · exact h.checksum other m' ((hextends.manifests other hother).symm.trans hm)
    complete := fun other m' hm => by
      by_cases hother : other = manifestDigest m
      · have heq : m = m' := Option.some.inj (hmanifest₃.symm.trans (hother ▸ hm))
        subst heq hother
        exact hcomplete
      · have hinventory : inventory t₃ other = inventory t other :=
          inventory_congr (hextends.links other hother)
            (fun link hlink => hlinked link (List.mem_of_mem_filter hlink))
            (congrArg (List.filter _) hextends.expired)
        have hold := (hextends.manifests other hother).symm.trans hm
        exact hinventory ▸ h.complete other m' hold }

/-! ### Reading a manifest -/

/-- The live links and the tombstones of a committed manifest are exactly its objects, and a read of
it fails only on a kind or a provenance other than its own. A read is judged in one state, though
it selects the manifest before its links and tombstones, which come in one statement: a release
that commits in between leaves no committed manifest. -/
structure InventoryHolds (manifestDigest : Manifest → Sha256) (t : Tables) : Prop where
  complete : ∀ sha m, t.manifests sha = some m →
    (liveRows t sha ++ expiredRows t sha).Perm (expectedRows m)
  disjoint : ∀ sha m, t.manifests sha = some m → ∀ row ∈ liveRows t sha, ∀ row' ∈ expiredRows t sha,
    row.ordinal ≠ row'.ordinal
  /-- No link is lost in the join. -/
  joined : ∀ sha, (liveRows t sha).length = (linksOf t sha).length
  read : ∀ ref m, t.manifests ref.manifestSha256 = some m →
    validatedPublishedManifest manifestDigest t ref =
      if m.kind ≠ ref.kind then .error .kindMismatch
      else if m.provenance ≠ ref.provenance then .error .provenanceMismatch
      else .ok m

lemma Consistent.inventoryHolds (h : Consistent manifestDigest t) :
    InventoryHolds manifestDigest t where
  complete := h.complete
  disjoint sha m hm row hrow row' hrow' := by
    have hordinals : ((inventory t sha).map InventoryRow.ordinal).Nodup := by
      have hperm := (h.complete sha m hm).map InventoryRow.ordinal
      exact hperm.nodup_iff.mpr (List.pairwise_map.mpr
        ((expectedRows_sorted m).imp fun hlt => Nat.ne_of_lt hlt))
    unfold inventory at hordinals
    rw [List.map_append] at hordinals
    exact (List.nodup_append.mp hordinals).2.2 _ (List.mem_map_of_mem hrow) _
      (List.mem_map_of_mem hrow')
  joined sha := by
    have hall : ∀ links : List ObjectLink, (∀ link ∈ links, link ∈ t.manifestObjects) →
        (links.filterMap (joinObject t)).length = links.length := by
      intro links
      induction links with
      | nil => exact fun _ => rfl
      | cons link links ih =>
        intro hlinks
        obtain ⟨size, hsize⟩ := Option.isSome_iff_exists.mp
          (h.linkObject link (hlinks link List.mem_cons_self))
        have hjoin : joinObject t link = some ⟨link.ordinal, link.logicalName,
            link.objectSha256, size⟩ := by
          unfold joinObject
          rw [hsize]
          rfl
        rw [List.filterMap_cons_some hjoin, List.length_cons, List.length_cons,
          ih fun other hother => hlinks other (List.mem_cons_of_mem _ hother)]
    exact hall _ fun link hlink => List.mem_of_mem_filter hlink
  read ref m hm := by
    unfold validatedPublishedManifest
    have hfound : found (t.manifests ref.manifestSha256) PublicationError.notCommitted = .ok m :=
      found_ok_iff.mpr hm
    have hchecksum : require (manifestDigest m = ref.manifestSha256)
        PublicationError.checksumInvalid = .ok () := require_ok_iff.mpr (h.checksum _ m hm)
    have hverify := verifyRecordedLinks_ok.mpr (h.complete _ m hm)
    rw [hfound, ok_bind, hchecksum, ok_bind, hverify, ok_bind]
    unfold require
    by_cases hkind : m.kind = ref.kind
    · by_cases hprovenance : m.provenance = ref.provenance
      · simp [hkind, hprovenance, pure, Except.pure]
      · simp [hkind, hprovenance, bind, Except.bind]
    · simp [hkind, bind, Except.bind]

end ThesisTrace.Publication
