import ThesisTrace.Library.Transaction

/-!
# Loops that stop at their first error

`errors f as` lists the errors that the steps `f a` of a loop would raise, had the loop not
stopped. The loop raises the first of them, and finishes when there is none.
-/

namespace Transaction

universe u v

variable {α κ : Type u} {β : Type u} {ε : Type v}

/-- The error of a computation that raises. -/
def error? : Except ε β → Option ε
  | .error e => some e
  | .ok _ => none

@[simp] lemma error?_error (e : ε) : error? (.error e : Except ε β) = some e := rfl

@[simp] lemma error?_ok (b : β) : error? (.ok b : Except ε β) = none := rfl

lemma error?_bind_pure {γ : Type u} (x : Except ε β) (g : β → γ) :
    error? (x >>= fun b => pure (g b)) = error? x := by
  cases x <;> rfl

/-- The errors of the steps of a loop, in order. -/
def errors (f : α → Except ε β) (as : List α) : List ε :=
  as.filterMap fun a => error? (f a)

variable {f : α → Except ε β} {as : List α}

@[simp] lemma errors_nil : errors f [] = [] := rfl

lemma errors_cons_error {a : α} {e : ε} (h : f a = .error e) :
    errors f (a :: as) = e :: errors f as := by
  simp [errors, h]

lemma errors_cons_ok {a : α} {b : β} (h : f a = .ok b) : errors f (a :: as) = errors f as := by
  simp [errors, h]

lemma errors_append (as bs : List α) : errors f (as ++ bs) = errors f as ++ errors f bs := by
  simp [errors]

lemma mem_errors {e : ε} : e ∈ errors f as ↔ ∃ a ∈ as, f a = .error e := by
  simp only [errors, List.mem_filterMap]
  refine exists_congr fun a => and_congr_right fun _ => ?_
  cases f a <;> simp

lemma errors_eq_nil : errors f as = [] ↔ ∀ a ∈ as, ∃ b, f a = .ok b := by
  rw [List.eq_nil_iff_forall_not_mem]
  constructor
  · intro h a ha
    cases hfa : f a with
    | error e => exact absurd (mem_errors.mpr ⟨a, ha, hfa⟩) (h e)
    | ok b => exact ⟨b, rfl⟩
  · intro h e he
    obtain ⟨a, ha, hfa⟩ := mem_errors.mp he
    obtain ⟨b, hb⟩ := h a ha
    rw [hfa] at hb
    cases hb

/-- A loop raises the first error of its steps. -/
theorem mapM_error? : error? (as.mapM f) = (errors f as).head? := by
  induction as with
  | nil => rfl
  | cons a as ih =>
    rw [List.mapM_cons]
    cases hfa : f a with
    | error e =>
      rw [errors_cons_error hfa]
      rfl
    | ok b =>
      rw [errors_cons_ok hfa, ← ih, ok_bind]
      cases as.mapM f <;> rfl

lemma foldlM_error? {σ : Type u} (update : σ → α → β → σ) (s : σ) :
    error? (as.foldlM (fun s a => update s a <$> f a) s) = (errors f as).head? := by
  induction as generalizing s with
  | nil => rfl
  | cons a as ih =>
    rw [List.foldlM_cons]
    cases hfa : f a with
    | error e =>
      rw [errors_cons_error hfa]
      rfl
    | ok b =>
      rw [errors_cons_ok hfa, ← ih (update s a b)]
      rfl

lemma eq_error {x : Except ε β} {e : ε} (h : error? x = some e) : x = .error e := by
  cases x with
  | error e' =>
    cases h
    rfl
  | ok b => cases h

lemma mapM_congr {g : α → Except ε β} (h : ∀ a ∈ as, f a = g a) : as.mapM f = as.mapM g := by
  induction as with
  | nil => rfl
  | cons a as ih =>
    rw [List.mapM_cons, List.mapM_cons, h a List.mem_cons_self,
      ih fun b hb => h b (List.mem_cons_of_mem _ hb)]

/-- The steps of a loop that does not raise. -/
lemma mapM_ok_mem {bs : List β} (h : as.mapM f = .ok bs) : ∀ a ∈ as, ∃ b, f a = .ok b := by
  have herrors : error? (as.mapM f) = (errors f as).head? := mapM_error?
  rw [h, error?_ok, eq_comm, List.head?_eq_none_iff] at herrors
  exact errors_eq_nil.mp herrors

/-- Each step of a loop that does not raise has its result, and each result its step. -/
lemma mapM_mem {bs : List β} (h : as.mapM f = .ok bs) :
    (∀ a ∈ as, ∃ b ∈ bs, f a = .ok b) ∧ ∀ b ∈ bs, ∃ a ∈ as, f a = .ok b := by
  induction as generalizing bs with
  | nil =>
    cases h
    exact ⟨nofun, nofun⟩
  | cons a as ih =>
    simp only [List.mapM_cons, bind_ok_iff, pure_ok_iff] at h
    obtain ⟨b, hb, rest, hrest, rfl⟩ := h
    obtain ⟨hleft, hright⟩ := ih hrest
    refine ⟨List.forall_mem_cons.mpr ⟨⟨b, List.mem_cons_self, hb⟩, fun c hc => ?_⟩,
      List.forall_mem_cons.mpr ⟨⟨a, List.mem_cons_self, hb⟩, fun d hd => ?_⟩⟩
    · obtain ⟨d, hd, hcd⟩ := hleft c hc
      exact ⟨d, List.mem_cons_of_mem _ hd, hcd⟩
    · obtain ⟨c, hc, hcd⟩ := hright d hd
      exact ⟨c, List.mem_cons_of_mem _ hc, hcd⟩

lemma mapM_toOption (h : ∀ a ∈ as, ∃ b, f a = .ok b) :
    as.mapM f = .ok (as.filterMap fun a => (f a).toOption) := by
  induction as with
  | nil => rfl
  | cons a as ih =>
    obtain ⟨b, hb⟩ := h a List.mem_cons_self
    rw [List.mapM_cons, hb, ih fun c hc => h c (List.mem_cons_of_mem _ hc),
      List.filterMap_cons_some (b := b) (by rw [hb]; rfl)]
    rfl

/-- Two loops in a row do what one loop over their composed steps does, when the first one does
not raise. -/
lemma mapM_compose {γ : Type u} {g : β → Except ε γ} {k : α → Except ε γ}
    (h : ∀ a ∈ as, ∃ b, f a = .ok b ∧ g b = k a) :
    ∃ bs, as.mapM f = .ok bs ∧ bs.mapM g = as.mapM k := by
  induction as with
  | nil => exact ⟨[], rfl, rfl⟩
  | cons a as ih =>
    obtain ⟨b, hb, hg⟩ := h a List.mem_cons_self
    obtain ⟨bs, hbs, hrest⟩ := ih fun c hc => h c (List.mem_cons_of_mem _ hc)
    refine ⟨b :: bs, ?_, ?_⟩
    · rw [List.mapM_cons, hb, hbs]
      rfl
    · rw [List.mapM_cons, List.mapM_cons, hg, hrest]

/-- Raise what a search found. -/
def raiseFound : Option ε → Except ε PUnit
  | none => .ok PUnit.unit
  | some e => .error e

/-- A loop that raises the first thing it finds. -/
lemma forM_raiseFound {g : α → Option ε} (as : List α) :
    (as.forM fun a => raiseFound (g a)) = raiseFound (as.findSome? g) := by
  induction as with
  | nil => rfl
  | cons a as ih =>
    cases hg : g a with
    | none =>
      simp only [List.forM, List.findSome?_cons, hg]
      exact ih
    | some e =>
      simp only [List.forM, List.findSome?_cons, hg]
      rfl

lemma findSome?_congr {γ : Type*} {g h : α → Option γ} (hgh : ∀ a ∈ as, g a = h a) :
    as.findSome? g = as.findSome? h := by
  induction as with
  | nil => rfl
  | cons a as ih =>
    rw [List.findSome?_cons, List.findSome?_cons, hgh a List.mem_cons_self,
      ih fun b hb => hgh b (List.mem_cons_of_mem _ hb)]

/-- The first error among the first errors of inner loops is the first error of all steps. -/
lemma head?_filterMap_head? {γ : Type*} (g : α → List γ) (as : List α) :
    (as.filterMap fun a => (g a).head?).head? = (as.flatMap g).head? := by
  induction as with
  | nil => rfl
  | cons a as ih =>
    rw [List.flatMap_cons]
    cases h : g a with
    | nil => simpa [h] using ih
    | cons x xs => simp [h]

/-- The first element that fails a check. -/
lemma exists_first {γ : Type*} {P : γ → Prop} {as : List γ} (h : ¬∀ a ∈ as, P a) :
    ∃ before a after, as = before ++ a :: after ∧ (∀ x ∈ before, P x) ∧ ¬P a := by
  induction as with
  | nil => simp at h
  | cons a as ih =>
    by_cases ha : P a
    · have hrest : ¬∀ x ∈ as, P x := fun hall => h (List.forall_mem_cons.mpr ⟨ha, hall⟩)
      obtain ⟨before, x, after, heq, hbefore, hx⟩ := ih hrest
      exact ⟨a :: before, x, after, by rw [heq, List.cons_append],
        List.forall_mem_cons.mpr ⟨ha, hbefore⟩, hx⟩
    · exact ⟨[], a, as, rfl, by simp, ha⟩

/-- A loop over the pairs of two lists, the second inside the first. -/
def pairs (ks : List κ) (as : List α) : List (κ × α) :=
  ks.flatMap fun k => as.map fun a => (k, a)

@[simp] lemma mem_pairs {ks : List κ} {as : List α} {entry : κ × α} :
    entry ∈ pairs ks as ↔ entry.1 ∈ ks ∧ entry.2 ∈ as := by
  obtain ⟨k, a⟩ := entry
  simp [pairs]

/-- Nested loops raise the first error of their steps. -/
theorem nested_error? {g : κ → α → Except ε β} (ks : List κ) (as : List α) :
    error? (ks.mapM fun k => do
      let bs ← as.mapM (g k)
      pure (k, bs)) = (errors (fun entry : κ × α => g entry.1 entry.2) (pairs ks as)).head? := by
  have hinner : ∀ k, error? (do let bs ← as.mapM (g k); pure (k, bs)) =
      (errors (g k) as).head? := by
    intro k
    rw [error?_bind_pure, mapM_error?]
  have hflat : errors (fun entry : κ × α => g entry.1 entry.2) (pairs ks as) =
      ks.flatMap fun k => errors (g k) as := by
    simp only [errors, pairs, List.filterMap_flatMap, List.filterMap_map]
    rfl
  rw [mapM_error?, hflat, ← head?_filterMap_head?]
  simp only [errors, hinner]

end Transaction
