import Mathlib.Algebra.Order.Group.Nat
import Mathlib.Algebra.Ring.Nat
import Mathlib.Data.List.Basic

/-!
# Caches that drop the least recently used entry

A cache of bounded size over arbitrary keys and values. The entries stand in the order of their
last use. A lookup finds the value that was stored last for its key, unless it was dropped since.
-/

namespace LruCache

variable {κ ν : Type*}

/-- The entries of a cache, the least recently used first, with the budget for their sizes. -/
structure Cache (κ ν : Type*) where
  maxsize : Nat
  entries : List (κ × ν)

/-- A cache with nothing in it. -/
def empty (maxsize : Nat) : Cache κ ν := ⟨maxsize, []⟩

/-- The sizes of all entries together. -/
def currsize (size : ν → Nat) (entries : List (κ × ν)) : Nat :=
  (entries.map fun entry => size entry.2).sum

/-- Drop the least recently used entries until a value of the given size fits. -/
def evict (size : ν → Nat) (maxsize needed : Nat) : List (κ × ν) → List (κ × ν)
  | [] => []
  | entry :: entries =>
    if maxsize < currsize size (entry :: entries) + needed then evict size maxsize needed entries
    else entry :: entries

lemma evict_suffix (size : ν → Nat) (maxsize needed : Nat) (entries : List (κ × ν)) :
    evict size maxsize needed entries <:+ entries := by
  induction entries with
  | nil => exact List.suffix_refl _
  | cons entry entries ih =>
    unfold evict
    split
    · exact ih.trans (List.suffix_cons _ _)
    · exact List.suffix_refl _

/-- Every entry of the cache satisfies `P`. -/
def All (P : κ → ν → Prop) (cache : Cache κ ν) : Prop :=
  ∀ entry ∈ cache.entries, P entry.1 entry.2

lemma all_empty (P : κ → ν → Prop) (maxsize : Nat) : All P (empty maxsize : Cache κ ν) :=
  fun _ h => nomatch h

section Keys

variable [DecidableEq κ]

/-- The value of a key; a lookup that does not count as a use. -/
def peek (cache : Cache κ ν) (key : κ) : Option ν :=
  (cache.entries.find? fun entry => entry.1 = key).map Prod.snd

/-- Make an entry the most recently used one. -/
def store (entries : List (κ × ν)) (key : κ) (value : ν) : List (κ × ν) :=
  entries.filter (fun entry => entry.1 ≠ key) ++ [(key, value)]

/-- The cache after a use of a key. -/
def touch (cache : Cache κ ν) (key : κ) : Cache κ ν :=
  match peek cache key with
  | some value => { cache with entries := store cache.entries key value }
  | none => cache

/-- Store a value; one that is larger than the whole budget is refused. -/
def set (size : ν → Nat) (cache : Cache κ ν) (key : κ) (value : ν) : Option (Cache κ ν) :=
  if cache.maxsize < size value then none
  else
    let grows := (peek cache key).all fun old => size old < size value
    let kept := if grows then evict size cache.maxsize (size value) cache.entries
      else cache.entries
    some { cache with entries := store kept key value }

variable {P : κ → ν → Prop} {cache cache' : Cache κ ν} {key : κ} {value : ν}

lemma All.peek (h : All P cache) (hpeek : peek cache key = some value) : P key value := by
  obtain ⟨entry, hentry, rfl⟩ := Option.map_eq_some_iff.mp hpeek
  have hkey : entry.1 = key := by simpa using List.find?_some hentry
  exact hkey ▸ h entry (List.mem_of_find?_eq_some hentry)

lemma all_store {entries : List (κ × ν)} (h : ∀ entry ∈ entries, P entry.1 entry.2)
    (hvalue : P key value) : ∀ entry ∈ store entries key value, P entry.1 entry.2 := by
  intro entry hmem
  rcases List.mem_append.mp hmem with hmem | hmem
  · exact h entry (List.mem_filter.mp hmem).1
  · obtain rfl := List.mem_singleton.mp hmem
    exact hvalue

lemma All.touch (h : All P cache) (key : κ) : All P (touch cache key) := by
  unfold LruCache.touch
  split
  · next value hpeek => exact all_store h (h.peek hpeek)
  · exact h

/-- A store keeps what holds of every entry, whatever it drops. -/
lemma All.set {size : ν → Nat} (h : All P cache) (hvalue : P key value)
    (hset : set size cache key value = some cache') : All P cache' := by
  unfold LruCache.set at hset
  split at hset
  · cases hset
  · cases hset
    refine all_store (fun entry hmem => h entry ?_) hvalue
    split at hmem
    · exact (evict_suffix _ _ _ _).subset hmem
    · exact hmem

@[simp] lemma touch_maxsize (cache : Cache κ ν) (key : κ) :
    (LruCache.touch cache key).maxsize = cache.maxsize := by
  unfold LruCache.touch
  split <;> rfl

end Keys

end LruCache
