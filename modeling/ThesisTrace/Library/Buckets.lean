import Mathlib.Algebra.BigOperators.Group.List.Basic
import ThesisTrace.Library.OrderedMap

/-!
# Buckets of a stream

Items are put into the buckets of a map, each of which accumulates what it gets. A bucket holds the
accumulation of its own items, and an additive measure of some buckets is the sum over the items
that were put into them.
-/

universe u v w

namespace Buckets
open OrderedMap

variable {κ : Type u} {σ : Type v} {α : Type w} [DecidableEq κ]

/-- Put an item into a bucket; `step` begins a bucket that is not there yet. -/
def put (step : Option σ → α → σ) (buckets : OrderedMap κ σ) (item : κ × α) : OrderedMap κ σ :=
  set buckets item.1 (step (buckets.lookup item.1) item.2)

/-- What a bucket accumulates from its items. -/
def accumulated (step : Option σ → α → σ) (state : Option σ) (items : List α) : Option σ :=
  items.foldl (fun state item => some (step state item)) state

/-- The items of one bucket. -/
def itemsOf (key : κ) (items : List (κ × α)) : List α :=
  (items.filter fun item => item.1 = key).map Prod.snd

lemma itemsOf_append (key : κ) (left right : List (κ × α)) :
    itemsOf key (left ++ right) = itemsOf key left ++ itemsOf key right := by
  simp [itemsOf]

lemma lookup_foldl_put (step : Option σ → α → σ) (items : List (κ × α))
    (buckets : OrderedMap κ σ) (key : κ) :
    (items.foldl (put step) buckets).lookup key
      = accumulated step (buckets.lookup key) (itemsOf key items) := by
  induction items generalizing buckets with
  | nil => rfl
  | cons item items ih =>
    rw [List.foldl_cons, ih, put, lookup_set]
    by_cases h : item.1 = key
    · subst h
      simp [itemsOf, accumulated]
    · simp [itemsOf, h, Ne.symm h]

/-! ### Measures -/

variable {M : Type*} [AddCommMonoid M]

/-- The measure of the buckets that `p` selects. -/
def total (p : κ → Bool) (measure : σ → M) (buckets : OrderedMap κ σ) : M :=
  ((buckets.entries.filter fun e => p e.1).map fun e => measure e.2).sum

lemma total_perm {p : κ → Bool} {measure : σ → M} {s t : OrderedMap κ σ}
    (h : ∀ key, s.lookup key = t.lookup key) : total p measure s = total p measure t :=
  (((perm_iff_lookup.mpr h).filter _).map _).sum_eq

/-- The bucket of a key and the others. -/
lemma total_eq_erase (p : κ → Bool) (measure : σ → M) (buckets : OrderedMap κ σ) (key : κ) :
    total p measure buckets
      = (if p key then (buckets.lookup key).elim 0 measure else 0)
        + total p measure (buckets.erase key) := by
  cases h : buckets.lookup key with
  | none =>
    have herase : ∀ k, buckets.lookup k = (buckets.erase key).lookup k := by
      intro k
      by_cases hk : k = key
      · rw [hk, h, AList.lookup_erase]
      · rw [AList.lookup_erase_ne hk]
    rw [total_perm herase, Option.elim_none, ite_self, zero_add]
  | some state =>
    have hinsert : ∀ k, buckets.lookup k = (buckets.insert key state).lookup k := by
      intro k
      by_cases hk : k = key
      · rw [hk, h, AList.lookup_insert]
      · rw [AList.lookup_insert_ne hk]
    have hrest : (buckets.erase key).entries = buckets.entries.kerase key := rfl
    rw [total_perm hinsert, total, AList.entries_insert, List.filter_cons, total, hrest]
    by_cases hp : p key = true
    · simp [hp]
    · simp [hp]

lemma total_set (p : κ → Bool) (measure : σ → M) (buckets : OrderedMap κ σ) (key : κ)
    (state : σ) : total p measure (set buckets key state)
      = (if p key then measure state else 0) + total p measure (buckets.erase key) := by
  have herase : ∀ k, ((set buckets key state).erase key).lookup k
      = (buckets.erase key).lookup k := by
    intro k
    by_cases hk : k = key
    · rw [hk, AList.lookup_erase, AList.lookup_erase]
    · rw [AList.lookup_erase_ne hk, AList.lookup_erase_ne hk, lookup_set, if_neg hk]
  rw [total_eq_erase p measure _ key, lookup_set, if_pos rfl, Option.elim_some, total_perm herase]

/-- The measure of a single bucket. -/
lemma total_single (measure : σ → M) (buckets : OrderedMap κ σ) (key : κ) :
    total (fun k => decide (k = key)) measure buckets = (buckets.lookup key).elim 0 measure := by
  have hothers : (buckets.erase key).entries.filter (fun e => decide (e.1 = key)) = [] := by
    rw [List.filter_eq_nil_iff]
    intro entry hentry
    have hmem : entry.1 ∈ (buckets.erase key).keys := List.mem_map_of_mem hentry
    have hne := (AList.mem_erase.mp hmem).1
    simpa using hne
  rw [total_eq_erase _ measure buckets key, total, hothers]
  simp

/-- A measure that every item of some kind increases by its weight, on buckets of some kind. -/
structure Additive (step : Option σ → α → σ) (I : σ → Prop) (Q : α → Prop) (measure : σ → M)
    (weight : α → M) : Prop where
  keeps : ∀ state item, (∀ s ∈ state, I s) → Q item → I (step state item)
  adds : ∀ state item, (∀ s ∈ state, I s) → Q item →
    measure (step state item) = state.elim 0 measure + weight item

variable {step : Option σ → α → σ} {I : σ → Prop} {Q : α → Prop} {measure : σ → M}
  {weight : α → M}

/-- An item adds its weight to the buckets that `p` selects. -/
lemma Additive.total_put (h : Additive step I Q measure weight) (p : κ → Bool)
    {buckets : OrderedMap κ σ} {item : κ × α} (hbuckets : ∀ key, ∀ s ∈ buckets.lookup key, I s)
    (hitem : Q item.2) :
    total p measure (put step buckets item)
      = total p measure buckets + if p item.1 then weight item.2 else 0 := by
  rw [put, total_set, total_eq_erase p measure buckets item.1, h.adds _ _ (hbuckets _) hitem]
  by_cases hp : p item.1 = true
  · simp only [hp, if_true]
    rw [add_right_comm]
  · simp [hp]

/-- The measure of some buckets is the sum over the items that were put into them. -/
theorem Additive.total_foldl_put (h : Additive step I Q measure weight) (p : κ → Bool)
    {items : List (κ × α)} {buckets : OrderedMap κ σ}
    (hbuckets : ∀ key, ∀ s ∈ buckets.lookup key, I s) (hitems : ∀ item ∈ items, Q item.2) :
    total p measure (items.foldl (put step) buckets)
      = total p measure buckets
        + (items.map fun item => if p item.1 then weight item.2 else 0).sum := by
  induction items generalizing buckets with
  | nil => simp
  | cons item items ih =>
    have hitem := hitems item List.mem_cons_self
    have hput : ∀ key, ∀ s ∈ (put step buckets item).lookup key, I s := by
      intro key s hs
      rw [put, lookup_set] at hs
      split at hs
      · obtain rfl := Option.mem_some.mp hs
        exact h.keeps _ _ (hbuckets _) hitem
      · exact hbuckets key s hs
    rw [List.foldl_cons, ih hput fun other hother => hitems other (List.mem_cons_of_mem _ hother),
      h.total_put p hbuckets hitem, List.map_cons, List.sum_cons, add_assoc]

end Buckets
