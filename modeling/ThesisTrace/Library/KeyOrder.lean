import Mathlib.Data.List.Sort

/-!
# Lists in the order of a key

A list whose members have keys of their own has one order: it follows from the members alone, so
that whatever computes the members in some order sorts to the same list.
-/

namespace KeyOrder

variable {α β κ : Type*} [LinearOrder κ]

-- What a definition that searches or sorts keys takes from their order.
scoped instance lawfulBEq_keys : LawfulBEq κ := inferInstance

scoped instance isTrans_keys : IsTrans κ (· ≤ ·) := inferInstance

scoped instance antisymm_keys : Std.Antisymm fun a b : κ => a ≤ b := inferInstance

/-- The list in the order of a key; members of one key keep their order. -/
def sortBy (key : α → κ) (l : List α) : List α := l.insertionSort fun a b => key a ≤ key b

variable {key : α → κ} {l l' : List α}

lemma sortBy_perm (key : α → κ) (l : List α) : (sortBy key l).Perm l :=
  List.perm_insertionSort _ _

@[simp] lemma mem_sortBy {a : α} : a ∈ sortBy key l ↔ a ∈ l := (sortBy_perm key l).mem_iff

lemma sortBy_pairwise (key : α → κ) (l : List α) :
    (sortBy key l).Pairwise fun a b => key a ≤ key b := by
  have htotal : Std.Total fun a b : α => key a ≤ key b := ⟨fun a b => le_total (key a) (key b)⟩
  have htrans : IsTrans α fun a b => key a ≤ key b := ⟨fun _ _ _ => le_trans⟩
  exact List.pairwise_insertionSort _ l

/-- With keys of their own the members are in strict order. -/
lemma sortBy_strict (h : (l.map key).Nodup) : (sortBy key l).Pairwise fun a b => key a < key b := by
  have hnodup : ((sortBy key l).map key).Nodup := ((sortBy_perm key l).map key).nodup_iff.mpr h
  exact (sortBy_pairwise key l).imp₂ (fun _ _ hle hne => lt_of_le_of_ne hle hne)
    (List.pairwise_map.mp hnodup)

lemma eq_of_mem_iff (h : l.Pairwise fun a b => key a < key b)
    (h' : l'.Pairwise fun a b => key a < key b) (hmem : ∀ a, a ∈ l ↔ a ∈ l') : l = l' := by
  have hirrefl : Std.Irrefl fun a b : α => key a < key b := ⟨fun a => lt_irrefl (key a)⟩
  have hantisymm : Std.Antisymm fun a b : α => key a < key b :=
    ⟨fun _ _ hab hba => absurd hab hba.asymm⟩
  exact h.eq_of_mem_iff h' hmem

/-- The members alone decide the sorted list. -/
theorem sortBy_eq_of_mem_iff (h : (l.map key).Nodup) (h' : (l'.map key).Nodup)
    (hmem : ∀ a, a ∈ l ↔ a ∈ l') : sortBy key l = sortBy key l' := by
  refine eq_of_mem_iff (sortBy_strict h) (sortBy_strict h') fun a => ?_
  rw [mem_sortBy, mem_sortBy, hmem]

lemma sortBy_eq_self (h : l.Pairwise fun a b => key a ≤ key b) : sortBy key l = l :=
  h.insertionSort_eq

lemma map_sortBy {key' : β → κ} (f : α → β) (h : ∀ a, key' (f a) = key a) (l : List α) :
    (sortBy key l).map f = sortBy key' (l.map f) :=
  List.map_insertionSort _ _ f l fun a _ b _ => by rw [h, h]

end KeyOrder
