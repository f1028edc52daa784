import Mathlib.Data.List.AList
import Mathlib.Data.List.Sort

/-!
# Maps that remember insertion order

An association list without duplicate keys, used as a dictionary whose iteration order is part
of its value: a new key goes to the end, an assignment to a known key keeps its place. Lookups
and key-sorted iteration do not see the order; `sortedFront` describes a map some of whose
entries have been put back in key order.
-/

universe u v w

/-- A dictionary with insertion order. -/
abbrev OrderedMap (κ : Type u) (ν : Type v) := AList fun _ : κ => ν

namespace OrderedMap

variable {κ : Type u} {ν : Type v} {ν' : Type w}

/-! ### Entries -/

/-- Keep or drop every entry, with a new value at the same place. -/
def filterMapEntries (f : κ → ν → Option ν') (entries : List (Sigma fun _ : κ => ν)) :
    List (Sigma fun _ : κ => ν') :=
  entries.filterMap fun e => (f e.1 e.2).map (Sigma.mk e.1)

lemma keys_filterMapEntries_sublist (f : κ → ν → Option ν')
    (entries : List (Sigma fun _ : κ => ν)) :
    (filterMapEntries f entries).keys.Sublist entries.keys := by
  unfold filterMapEntries
  induction entries with
  | nil => simp
  | cons e entries ih =>
    cases hf : f e.1 e.2 with
    | none =>
      simp only [List.filterMap_cons, hf, Option.map_none, List.keys_cons]
      exact ih.cons _
    | some v =>
      simp only [List.filterMap_cons, hf, Option.map_some, List.keys_cons]
      exact ih.cons_cons _

lemma filterMapEntries_perm {f : κ → ν → Option ν'} {es es' : List (Sigma fun _ : κ => ν)}
    (h : es.Perm es') : (filterMapEntries f es).Perm (filterMapEntries f es') :=
  h.filterMap _

lemma filter_filterMapEntries {f : κ → ν → Option ν'} {p : κ → ν → Bool} {q : κ → ν' → Bool}
    {entries : List (Sigma fun _ : κ => ν)}
    (h : ∀ e ∈ entries, ∀ y, f e.1 e.2 = some y → q e.1 y = p e.1 e.2) :
    (filterMapEntries f entries).filter (fun e => q e.1 e.2)
      = filterMapEntries f (entries.filter fun e => p e.1 e.2) := by
  induction entries with
  | nil => rfl
  | cons e entries ih =>
    have hrest := ih fun e' he' => h e' (List.mem_cons_of_mem _ he')
    have hhead := h e List.mem_cons_self
    unfold filterMapEntries at hrest ⊢
    cases hf : f e.1 e.2 with
    | none => by_cases hp : p e.1 e.2 = true <;> simp [hf, hp, hrest]
    | some y =>
      have hy := hhead y hf
      by_cases hp : p e.1 e.2 = true <;> simp [hf, hp, hy, hrest]

/-- A filter on keys commutes with every change that keeps the keys. -/
lemma filter_key_filterMapEntries (f : κ → ν → Option ν') (q : κ → Bool)
    (entries : List (Sigma fun _ : κ => ν)) :
    (filterMapEntries f entries).filter (fun e => q e.1)
      = filterMapEntries f (entries.filter fun e => q e.1) :=
  filter_filterMapEntries (p := fun k _ => q k) (q := fun k _ => q k) fun _ _ _ _ => rfl

lemma filterMapEntries_eq_self {f : κ → ν → Option ν} {entries : List (Sigma fun _ : κ => ν)}
    (h : ∀ e ∈ entries, f e.1 e.2 = some e.2) : filterMapEntries f entries = entries := by
  unfold filterMapEntries
  conv_rhs => rw [← List.filterMap_some (l := entries)]
  apply List.filterMap_congr
  intro e he
  rw [h e he]
  rfl

/-- Keep or drop every entry, with a new value at the same place. -/
def filterMap (f : κ → ν → Option ν') (s : OrderedMap κ ν) : OrderedMap κ ν' :=
  ⟨filterMapEntries f s.entries,
    List.Nodup.sublist (keys_filterMapEntries_sublist f s.entries) s.nodupKeys⟩

lemma entries_filterMap (f : κ → ν → Option ν') (s : OrderedMap κ ν) :
    (filterMap f s).entries = filterMapEntries f s.entries := rfl

section Lookup

variable [DecidableEq κ]

lemma lookup_eq_some_iff {s : OrderedMap κ ν} {k : κ} {x : ν} :
    s.lookup k = some x ↔ ⟨k, x⟩ ∈ s.entries := by
  rw [← Option.mem_def, AList.mem_lookup_iff]

/-- A map is determined up to order by its lookups. -/
lemma perm_iff_lookup {s t : OrderedMap κ ν} :
    s.entries.Perm t.entries ↔ ∀ k, s.lookup k = t.lookup k := by
  constructor
  · intro h k
    exact AList.perm_lookup h
  · intro h
    rw [List.perm_ext_iff_of_nodup s.nodupKeys.nodup t.nodupKeys.nodup]
    rintro ⟨k, x⟩
    rw [← lookup_eq_some_iff, ← lookup_eq_some_iff, h k]

@[simp] lemma lookup_filterMap (f : κ → ν → Option ν') (s : OrderedMap κ ν) (k : κ) :
    (filterMap f s).lookup k = (s.lookup k).bind (f k) := by
  apply Option.ext
  intro y
  rw [lookup_eq_some_iff, entries_filterMap, filterMapEntries, List.mem_filterMap]
  simp only [Option.bind_eq_some_iff, lookup_eq_some_iff, Option.map_eq_some_iff]
  constructor
  · rintro ⟨⟨k', x⟩, hmem, y', hy, heq⟩
    cases heq
    exact ⟨x, hmem, hy⟩
  · rintro ⟨x, hmem, hy⟩
    exact ⟨⟨k, x⟩, hmem, y, hy, rfl⟩

/-! ### Assignment and deletion -/

/-- `d[k] = x`. -/
def set (s : OrderedMap κ ν) (k : κ) (x : ν) : OrderedMap κ ν :=
  if h : k ∈ s then filterMap (fun k' y => some (if k' = k then x else y)) s
  else ⟨s.entries ++ [⟨k, x⟩], by
    rw [List.NodupKeys, List.keys_append, List.nodup_append]
    refine ⟨s.nodupKeys, List.nodup_singleton k, ?_⟩
    intro a ha b hb heq
    have hk : b = k := by simpa using hb
    rw [heq, hk] at ha
    exact h (AList.mem_keys.mpr ha)⟩

lemma set_of_mem {s : OrderedMap κ ν} {k : κ} (x : ν) (h : k ∈ s) :
    set s k x = filterMap (fun k' y => some (if k' = k then x else y)) s := by
  unfold set
  rw [dif_pos h]

lemma entries_set_of_notMem {s : OrderedMap κ ν} {k : κ} (x : ν) (h : k ∉ s) :
    (set s k x).entries = s.entries ++ [⟨k, x⟩] := by
  unfold set
  rw [dif_neg h]

@[simp] lemma lookup_set (s : OrderedMap κ ν) (k : κ) (x : ν) (k' : κ) :
    (set s k x).lookup k' = if k' = k then some x else s.lookup k' := by
  by_cases h : k ∈ s
  · rw [set_of_mem x h, lookup_filterMap]
    by_cases hk : k' = k
    · subst hk
      obtain ⟨y, hy⟩ := Option.isSome_iff_exists.mp (AList.lookup_isSome.mpr h)
      simp [hy]
    · simp [hk]
  · apply Option.ext
    intro y
    rw [lookup_eq_some_iff, entries_set_of_notMem x h, List.mem_append, List.mem_singleton]
    by_cases hk : k' = k
    · subst hk
      have hnone : ∀ y, (⟨k', y⟩ : Sigma fun _ : κ => ν) ∉ s.entries := by
        intro y hy
        rw [← lookup_eq_some_iff] at hy
        exact h (AList.lookup_isSome.mp (by rw [hy]; rfl))
      simp [hnone, eq_comm]
    · simp [hk, lookup_eq_some_iff]

@[simp] lemma mem_set {s : OrderedMap κ ν} {k k' : κ} {x : ν} :
    k' ∈ set s k x ↔ k' = k ∨ k' ∈ s := by
  rw [← AList.lookup_isSome, ← AList.lookup_isSome, lookup_set]
  split <;> simp_all

lemma erase_eq_filterMap (s : OrderedMap κ ν) (k : κ) :
    s.erase k = filterMap (fun k' x => if k' = k then none else some x) s := by
  apply AList.ext
  have hentries : ∀ entries : List (Sigma fun _ : κ => ν), entries.NodupKeys →
      entries.kerase k =
        filterMapEntries (fun k' x => if k' = k then none else some x) entries := by
    intro entries hnodup
    induction entries with
    | nil => rfl
    | cons e entries ih =>
      obtain ⟨hnotMem, hrest⟩ := List.nodupKeys_cons.mp hnodup
      by_cases hk : e.1 = k
      · have hkeep : filterMapEntries (fun k' x => if k' = k then none else some x) entries
            = entries := by
          apply filterMapEntries_eq_self
          intro e' he'
          have hne : e'.1 ≠ k := by
            intro heq
            exact hnotMem (hk ▸ heq ▸ List.mem_keys_of_mem he')
          rw [if_neg hne]
        rw [List.kerase_cons_eq hk.symm]
        simp only [filterMapEntries, List.filterMap_cons, hk, if_true, Option.map_none]
        exact hkeep.symm
      · rw [List.kerase_cons_ne (Ne.symm hk), ih hrest]
        simp [filterMapEntries, hk]
  exact hentries s.entries s.nodupKeys

/-- Assigning one key does not touch a filter that drops it. -/
lemma filter_set {q : κ → Bool} {s : OrderedMap κ ν} {k : κ} (x : ν) (h : q k = false) :
    (set s k x).entries.filter (fun e => q e.1) = s.entries.filter fun e => q e.1 := by
  by_cases hk : k ∈ s
  · rw [set_of_mem x hk, entries_filterMap, filter_key_filterMapEntries]
    apply filterMapEntries_eq_self
    intro e he
    have hne : e.1 ≠ k := by
      intro heq
      have hq := (List.mem_filter.mp he).2
      rw [heq, h] at hq
      cases hq
    rw [if_neg hne]
  · rw [entries_set_of_notMem x hk, List.filter_append]
    simp [h]

lemma filter_erase {q : κ → Bool} {s : OrderedMap κ ν} {k : κ} (h : q k = false) :
    (s.erase k).entries.filter (fun e => q e.1) = s.entries.filter fun e => q e.1 := by
  rw [erase_eq_filterMap, entries_filterMap, filter_key_filterMapEntries]
  apply filterMapEntries_eq_self
  intro e he
  have hne : e.1 ≠ k := by
    intro heq
    have hq := (List.mem_filter.mp he).2
    rw [heq, h] at hq
    cases hq
  rw [if_neg hne]

/-- `{k: x for k, x in rows}`. -/
def ofRows (rows : List (Sigma fun _ : κ => ν)) : OrderedMap κ ν :=
  rows.foldl (fun s e => set s e.1 e.2) ∅

lemma entries_foldl_set {rows : List (Sigma fun _ : κ => ν)} {s : OrderedMap κ ν}
    (h : (s.entries ++ rows).NodupKeys) :
    (rows.foldl (fun s e => set s e.1 e.2) s).entries = s.entries ++ rows := by
  induction rows generalizing s with
  | nil => simp
  | cons e rows ih =>
    have hnotMem : e.1 ∉ s := by
      intro hmem
      rw [List.NodupKeys, List.keys_append, List.nodup_append] at h
      exact h.2.2 e.1 (AList.mem_keys.mp hmem) e.1 (by simp) rfl
    have hset : (set s e.1 e.2).entries = s.entries ++ [e] := entries_set_of_notMem e.2 hnotMem
    rw [List.foldl_cons, ih, hset, List.append_assoc, List.singleton_append]
    rw [hset, List.append_assoc, List.singleton_append]
    exact h

lemma entries_ofRows {rows : List (Sigma fun _ : κ => ν)} (h : rows.NodupKeys) :
    (ofRows rows).entries = rows := by
  unfold ofRows
  rw [entries_foldl_set (by simpa using h)]
  simp

end Lookup

/-! ### Key order -/

section Sorted

variable [LinearOrder κ]

/-- `sorted(d.items())`. -/
def sortEntries (entries : List (Sigma fun _ : κ => ν)) : List (Sigma fun _ : κ => ν) :=
  entries.insertionSort fun e e' => e.1 ≤ e'.1

lemma sortEntries_perm (entries : List (Sigma fun _ : κ => ν)) :
    (sortEntries entries).Perm entries :=
  List.perm_insertionSort _ _

lemma sortEntries_pairwise (entries : List (Sigma fun _ : κ => ν)) :
    (sortEntries entries).Pairwise fun e e' => e.1 ≤ e'.1 := by
  unfold sortEntries
  have htotal : Std.Total fun e e' : Sigma fun _ : κ => ν => e.1 ≤ e'.1 :=
    ⟨fun e e' => le_total e.1 e'.1⟩
  have htrans : IsTrans _ fun e e' : Sigma fun _ : κ => ν => e.1 ≤ e'.1 :=
    ⟨fun _ _ _ => le_trans⟩
  exact List.pairwise_insertionSort _ entries

/-- Key-sorted lists without duplicate keys are equal when they have the same entries. -/
lemma eq_of_perm_of_sorted {es es' : List (Sigma fun _ : κ => ν)} (hnodup : es.NodupKeys)
    (hsorted : es.Pairwise fun e e' => e.1 ≤ e'.1) (hsorted' : es'.Pairwise fun e e' => e.1 ≤ e'.1)
    (h : es.Perm es') : es = es' := by
  refine List.Perm.eq_of_pairwise ?_ hsorted hsorted' h
  intro e e' he he' hle hle'
  exact hnodup.eq_of_fst_eq he (h.mem_iff.mpr he') (le_antisymm hle hle')

lemma sortEntries_congr {es es' : List (Sigma fun _ : κ => ν)} (hnodup : es.NodupKeys)
    (h : es.Perm es') : sortEntries es = sortEntries es' := by
  refine eq_of_perm_of_sorted ?_ (sortEntries_pairwise es) (sortEntries_pairwise es') ?_
  · exact (List.perm_nodupKeys (sortEntries_perm es)).mpr hnodup
  · exact (sortEntries_perm es).trans (h.trans (sortEntries_perm es').symm)

lemma sortEntries_filterMapEntries (f : κ → ν → Option ν') {es : List (Sigma fun _ : κ => ν)}
    (hnodup : es.NodupKeys) :
    sortEntries (filterMapEntries f es) = filterMapEntries f (sortEntries es) := by
  have hsublist := keys_filterMapEntries_sublist f (sortEntries es)
  have hkeys : (sortEntries es).keys.Pairwise (· ≤ ·) := by
    rw [List.keys, List.pairwise_map]
    exact sortEntries_pairwise es
  have hsorted : (filterMapEntries f (sortEntries es)).Pairwise fun e e' => e.1 ≤ e'.1 := by
    have h := hkeys.sublist hsublist
    rwa [List.keys, List.pairwise_map] at h
  refine eq_of_perm_of_sorted ?_ (sortEntries_pairwise _) hsorted ?_
  · refine (List.perm_nodupKeys (sortEntries_perm _)).mpr ?_
    exact List.Nodup.sublist (keys_filterMapEntries_sublist f es) hnodup
  · exact (sortEntries_perm _).trans (filterMapEntries_perm (sortEntries_perm es)).symm

/-- The map with its entries in key order. -/
def sorted (s : OrderedMap κ ν) : OrderedMap κ ν :=
  ⟨sortEntries s.entries, (List.perm_nodupKeys (sortEntries_perm s.entries)).mpr s.nodupKeys⟩

lemma entries_sorted (s : OrderedMap κ ν) : (sorted s).entries = sortEntries s.entries := rfl

lemma sorted_congr {s t : OrderedMap κ ν} (h : s.entries.Perm t.entries) : sorted s = sorted t :=
  AList.ext (sortEntries_congr s.nodupKeys h)

/-- Entries that satisfy `p` in key order, then the others in their own order. -/
def sortFront (p : κ → ν → Bool) (entries : List (Sigma fun _ : κ => ν)) :
    List (Sigma fun _ : κ => ν) :=
  sortEntries (entries.filter fun e => p e.1 e.2) ++ entries.filter fun e => !p e.1 e.2

lemma sortFront_perm (p : κ → ν → Bool) (entries : List (Sigma fun _ : κ => ν)) :
    (sortFront p entries).Perm entries :=
  ((sortEntries_perm _).append_right _).trans (List.filter_append_perm _ entries)

/-- The map with the entries that satisfy `p` moved to the front in key order. -/
def sortedFront (p : κ → ν → Bool) (s : OrderedMap κ ν) : OrderedMap κ ν :=
  ⟨sortFront p s.entries, (List.perm_nodupKeys (sortFront_perm p s.entries)).mpr s.nodupKeys⟩

lemma entries_sortedFront (p : κ → ν → Bool) (s : OrderedMap κ ν) :
    (sortedFront p s).entries = sortFront p s.entries := rfl

lemma sortedFront_perm (p : κ → ν → Bool) (s : OrderedMap κ ν) :
    (sortedFront p s).entries.Perm s.entries :=
  sortFront_perm p s.entries

@[simp] lemma lookup_sortedFront (p : κ → ν → Bool) (s : OrderedMap κ ν) (k : κ) :
    (sortedFront p s).lookup k = s.lookup k :=
  AList.perm_lookup (sortedFront_perm p s)

@[simp] lemma mem_sortedFront {p : κ → ν → Bool} {s : OrderedMap κ ν} {k : κ} :
    k ∈ sortedFront p s ↔ k ∈ s :=
  AList.mem_of_perm (sortedFront_perm p s)

@[simp] lemma sorted_sortedFront (p : κ → ν → Bool) (s : OrderedMap κ ν) :
    sorted (sortedFront p s) = sorted s :=
  sorted_congr (sortedFront_perm p s)

lemma sortedFront_of_forall {p : κ → ν → Bool} {s : OrderedMap κ ν}
    (h : ∀ e ∈ s.entries, p e.1 e.2 = true) : sortedFront p s = sorted s := by
  apply AList.ext
  rw [entries_sortedFront, entries_sorted, sortFront, List.filter_eq_self.mpr h,
    List.filter_eq_nil_iff.mpr, List.append_nil]
  intro e he
  simp [h e he]

lemma sortedFront_of_forall_not {p : κ → ν → Bool} {s : OrderedMap κ ν}
    (h : ∀ e ∈ s.entries, p e.1 e.2 = false) : sortedFront p s = s := by
  apply AList.ext
  rw [entries_sortedFront, sortFront, List.filter_eq_nil_iff.mpr (by simpa using h),
    List.filter_eq_self.mpr (by simpa using h)]
  rfl

/-- Changes that keep every entry on its side of `p` commute with the reordering. -/
lemma sortedFront_filterMap {f : κ → ν → Option ν'} {p : κ → ν → Bool} {q : κ → ν' → Bool}
    {s : OrderedMap κ ν}
    (h : ∀ e ∈ s.entries, ∀ y, f e.1 e.2 = some y → q e.1 y = p e.1 e.2) :
    sortedFront q (filterMap f s) = filterMap f (sortedFront p s) := by
  have hfront := filter_filterMapEntries h
  have hback := filter_filterMapEntries (p := fun k x => !p k x) (q := fun k x => !q k x)
    fun e he y hy => congrArg not (h e he y hy)
  have hnodup : (s.entries.filter fun e => p e.1 e.2).NodupKeys :=
    List.Nodup.sublist (List.filter_sublist.map _) s.nodupKeys
  apply AList.ext
  rw [entries_sortedFront, entries_filterMap, entries_filterMap, entries_sortedFront, sortFront,
    sortFront, hfront, hback, sortEntries_filterMapEntries f hnodup]
  exact List.filterMap_append.symm

lemma sortedFront_erase (p : κ → ν → Bool) (s : OrderedMap κ ν) (k : κ) :
    sortedFront p (s.erase k) = (sortedFront p s).erase k := by
  rw [erase_eq_filterMap, erase_eq_filterMap]
  apply sortedFront_filterMap
  intro e he y hy
  split at hy <;> simp_all

/-- An assignment that keeps a known key on its side of `p`, or adds a new key behind. -/
lemma sortedFront_set {p : κ → ν → Bool} {s : OrderedMap κ ν} {k : κ} {x : ν}
    (hknown : ∀ y, s.lookup k = some y → p k x = p k y) (hnew : k ∉ s → p k x = false) :
    sortedFront p (set s k x) = set (sortedFront p s) k x := by
  by_cases hk : k ∈ s
  · rw [set_of_mem x hk, set_of_mem x (mem_sortedFront.mpr hk)]
    apply sortedFront_filterMap
    intro e he y hy
    cases hy
    split
    · next heq =>
      rw [heq]
      exact hknown e.2 (lookup_eq_some_iff.mpr (heq ▸ he))
    · rfl
  · apply AList.ext
    rw [entries_set_of_notMem x (by simpa using hk), entries_sortedFront, entries_sortedFront,
      entries_set_of_notMem x hk]
    simp [sortFront, hnew hk]

end Sorted

end OrderedMap
