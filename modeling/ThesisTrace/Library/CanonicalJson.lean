import Mathlib.Data.List.Sort
import Mathlib.Data.String.Basic
import ThesisTrace.Library.JsonText

/-!
# Canonical JSON

Values whose keys are in order, and their bytes, which depend on nothing but the values.
-/

namespace JsonText

variable {F : Type}

mutual

/-- The keys of every object are in order. -/
def Json.sorted : Json F → Json F
  | .arr items => .arr (sortedItems items)
  | .obj fields => .obj ((sortedFields fields).insertionSort fun a b => a.1 ≤ b.1)
  | .null => .null
  | .bool value => .bool value
  | .int value => .int value
  | .float value => .float value
  | .str text => .str text

def sortedItems : List (Json F) → List (Json F)
  | [] => []
  | item :: items => item.sorted :: sortedItems items

def sortedFields : List (String × Json F) → List (String × Json F)
  | [] => []
  | (key, value) :: fields => (key, value.sorted) :: sortedFields fields

end

lemma sortedItems_eq (items : List (Json F)) : sortedItems items = items.map Json.sorted := by
  induction items with
  | nil => rfl
  | cons item items ih => exact congrArg (item.sorted :: ·) ih

lemma sortedFields_eq (fields : List (String × Json F)) :
    sortedFields fields = fields.map fun field => (field.1, field.2.sorted) := by
  induction fields with
  | nil => rfl
  | cons field fields ih => exact congrArg ((field.1, field.2.sorted) :: ·) ih

lemma sorted_arr (items : List (Json F)) : (Json.arr items).sorted = .arr (items.map Json.sorted) :=
  congrArg Json.arr (sortedItems_eq items)

lemma sorted_obj (fields : List (String × Json F)) :
    (Json.obj fields).sorted =
      .obj ((sortedFields fields).insertionSort fun a b => a.1 ≤ b.1) :=
  rfl

/-- The fields of an object after sorting are its fields, each with its value sorted. -/
lemma sorted_fields_perm (fields : List (String × Json F)) :
    ((sortedFields fields).insertionSort fun a b => a.1 ≤ b.1).Perm
      (fields.map fun field => (field.1, field.2.sorted)) :=
  sortedFields_eq fields ▸ List.perm_insertionSort _ _

lemma Json.WellFormed.sorted {v : Json F} (h : v.WellFormed) : v.sorted.WellFormed := by
  induction v using Json.induct with
  | null => trivial
  | bool value => trivial
  | int value => trivial
  | float value => trivial
  | str text => trivial
  | arr items ih =>
    have hitems : ∀ item ∈ items, item.WellFormed := wellFormedItems_iff.mp h
    rw [sorted_arr]
    refine wellFormedItems_iff.mpr fun item hitem => ?_
    obtain ⟨old, hold, rfl⟩ := List.mem_map.mp hitem
    exact ih old hold (hitems old hold)
  | obj fields ih =>
    obtain ⟨hkeys, hfields⟩ : (fields.map Prod.fst).Nodup ∧ WellFormedFields fields := h
    have hvalues := wellFormedFields_iff.mp hfields
    have hperm := sorted_fields_perm fields
    rw [sorted_obj]
    refine ⟨?_, wellFormedFields_iff.mpr fun field hfield => ?_⟩
    · rw [(hperm.map Prod.fst).nodup_iff, List.map_map]
      exact hkeys
    · obtain ⟨old, hold, rfl⟩ := List.mem_map.mp (hperm.mem_iff.mp hfield)
      exact ih old hold (hvalues old hold)

lemma lookup_eq_some_iff {fields : List (String × Json F)} (hkeys : (fields.map Prod.fst).Nodup)
    {key : String} {value : Json F} : lookup fields key = some value ↔ (key, value) ∈ fields := by
  induction fields with
  | nil => simp [lookup]
  | cons field fields ih =>
    obtain ⟨hfirst, hrest⟩ := List.nodup_cons.mp hkeys
    have hlookup : lookup (field :: fields) key =
        if field.1 = key then some field.2 else lookup fields key := by
      unfold lookup
      by_cases hkey : field.1 = key
      · rw [List.find?_cons_of_pos (by simpa using hkey), if_pos hkey, Option.map_some]
      · rw [List.find?_cons_of_neg (by simpa using hkey), if_neg hkey]
    rw [hlookup, List.mem_cons]
    split
    · next hkey =>
      have hnone : (key, value) ∉ fields := fun hmem =>
        hfirst (hkey ▸ List.mem_map_of_mem hmem)
      simp only [hnone, or_false, Option.some.injEq]
      exact ⟨fun h => Prod.ext hkey.symm h.symm, fun h => (congrArg Prod.snd h).symm⟩
    · next hkey =>
      rw [ih hrest]
      exact ⟨.inr, fun h => h.resolve_left fun heq => hkey (congrArg Prod.fst heq).symm⟩

/-- Sorting keeps the value of every key, but for the order in it. -/
lemma lookup_sorted {fields : List (String × Json F)} (hkeys : (fields.map Prod.fst).Nodup)
    (key : String) :
    lookup ((sortedFields fields).insertionSort fun a b => a.1 ≤ b.1) key =
      (lookup fields key).map Json.sorted := by
  have hperm := sorted_fields_perm fields
  have hsorted : (((sortedFields fields).insertionSort fun a b => a.1 ≤ b.1).map
      Prod.fst).Nodup := by
    rw [(hperm.map Prod.fst).nodup_iff, List.map_map]
    exact hkeys
  ext value
  rw [lookup_eq_some_iff hsorted, hperm.mem_iff, List.mem_map, Option.map_eq_some_iff]
  constructor
  · rintro ⟨⟨key', old⟩, hold, hfield⟩
    cases hfield
    exact ⟨old, (lookup_eq_some_iff hkeys).mpr hold, rfl⟩
  · rintro ⟨old, hold, rfl⟩
    exact ⟨(key, old), (lookup_eq_some_iff hkeys).mp hold, rfl⟩

/-- The bytes of a value, with its keys in order and as few escapes as possible. -/
def canonicalBytes (format : FloatFormat F) (v : Json F) : List UInt8 :=
  dumpBytes format false v.sorted

theorem loadBytes_canonicalBytes {format : FloatFormat F} {v : Json F} (hv : v.WellFormed) :
    loadBytes format (canonicalBytes format v) = some v.sorted :=
  loadBytes_dumpBytes _ hv.sorted

end JsonText
