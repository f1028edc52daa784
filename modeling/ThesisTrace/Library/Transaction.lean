import Mathlib.Data.List.Defs
import Mathlib.Tactic.Basic

/-!
# Transactions that commit or roll back

A database transaction is a computation in `Except ε`: `.ok` carries the committed state
and `.error` is a rollback. The lemmas invert a committed transaction into the checks that
it passed.
-/

namespace Transaction

universe u v

variable {ε : Type v} {β γ : Type u}

/-- Roll back with `e` unless the check holds. -/
def require (p : Prop) [Decidable p] (e : ε) : Except ε Unit :=
  if p then .ok () else .error e

/-- The row that a query returned, or a rollback with `e` when there is none. -/
def found (row : Option β) (e : ε) : Except ε β :=
  match row with
  | some value => .ok value
  | none => .error e

@[simp] lemma require_ok_iff {p : Prop} [Decidable p] {e : ε} {u : Unit} :
    require p e = .ok u ↔ p := by
  unfold require
  split <;> simp_all

lemma require_pos {p : Prop} [Decidable p] {e : ε} (h : p) : require p e = .ok () := if_pos h

@[simp] lemma found_ok_iff {row : Option β} {e : ε} {value : β} :
    found row e = .ok value ↔ row = some value := by
  unfold found
  cases row <;> simp

@[simp] lemma bind_ok_iff {x : Except ε β} {f : β → Except ε γ} {c : γ} :
    (x >>= f) = .ok c ↔ ∃ b, x = .ok b ∧ f b = .ok c := by
  cases x <;> simp [bind, Except.bind]

@[simp] lemma ok_bind (b : β) (f : β → Except ε γ) : ((.ok b : Except ε β) >>= f) = f b := rfl

@[simp] lemma pure_ok_iff {b c : β} : (pure b : Except ε β) = .ok c ↔ b = c := by
  simp [pure, Except.pure]

@[simp] lemma map_ok_iff {x : Except ε β} {f : β → γ} {c : γ} :
    x.map f = .ok c ↔ ∃ b, x = .ok b ∧ f b = c := by
  cases x <;> simp [Except.map]

@[simp] lemma ok_mapError {ε' : Type*} (b : β) (f : ε → ε') :
    (Except.ok b : Except ε β).mapError f = .ok b := rfl

@[simp] lemma error_mapError {ε' : Type*} (e : ε) (f : ε → ε') :
    (Except.error e : Except ε β).mapError f = .error (f e) := rfl

@[simp] lemma mapError_ok_iff {ε' : Type*} {x : Except ε β} {f : ε → ε'} {b : β} :
    x.mapError f = .ok b ↔ x = .ok b := by
  cases x with
  | error e => simp
  | ok a => simp

@[simp] lemma mapError_error_iff {ε' : Type*} {x : Except ε β} {f : ε → ε'} {e' : ε'} :
    x.mapError f = .error e' ↔ ∃ e, x = .error e ∧ f e = e' := by
  cases x with
  | error e => simp
  | ok a => simp

/-- A list whose elements are all computed. -/
lemma mapM_ok {α : Type*} {f : α → Except ε β} {g : α → β} {as : List α}
    (h : ∀ a ∈ as, f a = .ok (g a)) : as.mapM f = .ok (as.map g) := by
  induction as with
  | nil => rfl
  | cons a as ih =>
    rw [List.mapM_cons, h a List.mem_cons_self, ih fun b hb => h b (List.mem_cons_of_mem _ hb)]
    rfl

/-- A loop whose every round succeeds with a value as it should be. -/
lemma mapM_exists {α : Type*} {f : α → Except ε β} {R : α → β → Prop} {as : List α}
    (h : ∀ a ∈ as, ∃ b, f a = .ok b ∧ R a b) :
    ∃ bs, as.mapM f = .ok bs ∧ List.Forall₂ R as bs := by
  induction as with
  | nil => exact ⟨[], rfl, .nil⟩
  | cons a as ih =>
    obtain ⟨b, hb, hR⟩ := h a List.mem_cons_self
    obtain ⟨bs, hbs, hRs⟩ := ih fun a' ha' => h a' (List.mem_cons_of_mem _ ha')
    refine ⟨b :: bs, ?_, .cons hR hRs⟩
    rw [List.mapM_cons, hb, ok_bind, hbs, ok_bind]
    rfl

/-- A loop that commits gave its values round by round. -/
lemma forall₂_of_mapM {α : Type*} {f : α → Except ε β} {as : List α} {bs : List β}
    (h : as.mapM f = .ok bs) : List.Forall₂ (fun a b => f a = .ok b) as bs := by
  induction as generalizing bs with
  | nil =>
    cases h
    exact .nil
  | cons a as ih =>
    rw [List.mapM_cons] at h
    simp only [bind_ok_iff, pure_ok_iff] at h
    obtain ⟨b, hb, bs, hbs, rfl⟩ := h
    exact .cons hb (ih hbs)

/-- What follows from the relation to a partner holds of every element of the second list. -/
lemma forall_of_forall₂ {α : Type*} {R : α → β → Prop} {p : β → Prop} {as : List α} {bs : List β}
    (h : List.Forall₂ R as bs) (hp : ∀ a b, R a b → p b) : ∀ b ∈ bs, p b := by
  induction h with
  | nil => nofun
  | cons hR _ ih => exact List.forall_mem_cons.mpr ⟨hp _ _ hR, ih⟩

/-- Every round of a loop that commits gave one of its values. -/
lemma exists_mem_of_mapM {α : Type*} {f : α → Except ε β} {as : List α} {bs : List β}
    (h : as.mapM f = .ok bs) {a : α} (ha : a ∈ as) : ∃ b ∈ bs, f a = .ok b := by
  induction as generalizing bs with
  | nil => cases ha
  | cons first as ih =>
    rw [List.mapM_cons] at h
    simp only [bind_ok_iff, pure_ok_iff] at h
    obtain ⟨b, hb, rest, hrest, rfl⟩ := h
    rcases List.mem_cons.mp ha with rfl | ha
    · exact ⟨b, List.mem_cons_self, hb⟩
    · obtain ⟨b', hb', hrow⟩ := ih hrest ha
      exact ⟨b', List.mem_cons_of_mem _ hb', hrow⟩

/-! ### Rollbacks -/

lemma require_error {p : Prop} [Decidable p] {e e' : ε} (h : require p e = .error e') :
    ¬p ∧ e' = e := by
  unfold require at h
  split at h
  · cases h
  · next hp =>
    cases h
    exact ⟨hp, rfl⟩

lemma found_error {row : Option β} {e e' : ε} (h : found row e = .error e') :
    row = none ∧ e' = e := by
  unfold found at h
  cases row with
  | none =>
    cases h
    exact ⟨rfl, rfl⟩
  | some value => cases h

lemma bind_error {x : Except ε β} {f : β → Except ε γ} {e : ε} (h : (x >>= f) = .error e) :
    x = .error e ∨ ∃ b, x = .ok b ∧ f b = .error e := by
  cases x with
  | error e' =>
    cases h
    exact .inl rfl
  | ok b => exact .inr ⟨b, rfl, h⟩

lemma mapM_error {α : Type*} {f : α → Except ε β} {as : List α} {e : ε}
    (h : as.mapM f = .error e) : ∃ a ∈ as, f a = .error e := by
  induction as with
  | nil =>
    rw [List.mapM_nil] at h
    cases h
  | cons a as ih =>
    rw [List.mapM_cons] at h
    rcases bind_error h with hhead | ⟨b, -, hrest⟩
    · exact ⟨a, List.mem_cons_self, hhead⟩
    · rcases bind_error hrest with htail | ⟨bs, -, hpure⟩
      · obtain ⟨a', ha', herror⟩ := ih htail
        exact ⟨a', List.mem_cons_of_mem _ ha', herror⟩
      · cases hpure

/-! ### Loops -/

/-- What holds before a loop and is kept by each of its steps holds after the loop. -/
lemma foldlM_preserves {α : Type*} {step : β → α → Except ε β} {I : β → Prop}
    (hstep : ∀ s a t, I s → step s a = .ok t → I t) {as : List α} {s t : β} (h0 : I s)
    (h : as.foldlM step s = .ok t) : I t := by
  induction as generalizing s with
  | nil =>
    rw [List.foldlM_nil, pure_ok_iff] at h
    exact h ▸ h0
  | cons a as ih =>
    rw [List.foldlM_cons, bind_ok_iff] at h
    obtain ⟨u, hu, hrest⟩ := h
    exact ih (hstep s a u h0 hu) hrest

/-- A loop whose steps read only `g` of the state sees no difference between states with the
same `g`. -/
lemma foldlM_map_congr {α : Type*} {step : β → α → Except ε β} {g : β → γ}
    (hstep : ∀ s s' a, g s = g s' → (step s a).map g = (step s' a).map g) {as : List α} {s s' : β}
    (h : g s = g s') : (as.foldlM step s).map g = (as.foldlM step s').map g := by
  induction as generalizing s s' with
  | nil => exact congrArg Except.ok h
  | cons a as ih =>
    rw [List.foldlM_cons, List.foldlM_cons]
    have hfirst := hstep s s' a h
    cases hx : step s a with
    | error e =>
      cases hy : step s' a with
      | error e' => rw [hx, hy] at hfirst; exact hfirst
      | ok t' => rw [hx, hy] at hfirst; cases hfirst
    | ok t =>
      cases hy : step s' a with
      | error e' => rw [hx, hy] at hfirst; cases hfirst
      | ok t' =>
        rw [hx, hy] at hfirst
        exact ih (Except.ok.inj hfirst)

/-! ### Mirrored transactions -/

/-- Both transactions commit, the second with the image of what the first one commits, or both
roll back, each for its own reason. -/
inductive Mirrors {β' : Type u} (g : β → β') : Except ε β → Except ε β' → Prop
  | commit (b : β) : Mirrors g (.ok b) (.ok (g b))
  | rollback (e e' : ε) : Mirrors g (.error e) (.error e')

namespace Mirrors

variable {β' γ' : Type u} {g : β → β'} {k : γ → γ'} {x : Except ε β} {y : Except ε β'}

lemma of_eq {y : Except ε β} (h : y = x) : Mirrors id x y := by
  subst h
  cases y with
  | ok b => exact .commit b
  | error e => exact .rollback e e

lemma of_map (h : y = x.map g) : Mirrors g x y := by
  subst h
  cases x with
  | ok b => exact .commit b
  | error e => exact .rollback e e

lemma ok_iff {c : β'} (h : Mirrors g x y) : y = .ok c ↔ ∃ b, x = .ok b ∧ g b = c := by
  cases h <;> simp

lemma ok {b : β} (h : Mirrors g x y) (hx : x = .ok b) : y = .ok (g b) :=
  h.ok_iff.mpr ⟨b, hx, rfl⟩

lemma bind {f : β → Except ε γ} {f' : β' → Except ε γ'} (h : Mirrors g x y)
    (hf : ∀ b, x = .ok b → Mirrors k (f b) (f' (g b))) : Mirrors k (x >>= f) (y >>= f') := by
  cases h with
  | commit b => exact hf b rfl
  | rollback e e' => exact .rollback e e'

/-- One step that both transactions take in the same way. -/
lemma step {f : β → Except ε γ} {f' : β → Except ε γ'}
    (hf : ∀ b, x = .ok b → Mirrors k (f b) (f' b)) : Mirrors k (x >>= f) (x >>= f') :=
  (of_eq rfl).bind hf

lemma trans_id {z : Except ε β'} (h : Mirrors g x y) (h' : Mirrors id y z) : Mirrors g x z := by
  cases h with
  | commit b => exact match h' with | .commit _ => .commit b
  | rollback e e' => exact match h' with | .rollback _ e'' => .rollback e e''

/-- Loops mirror each other when each of their steps does. -/
lemma foldlM {α : Type*} {step : β → α → Except ε β} {step' : β' → α → Except ε β'}
    (hstep : ∀ s a, Mirrors g (step s a) (step' (g s) a)) (as : List α) (s : β) :
    Mirrors g (as.foldlM step s) (as.foldlM step' (g s)) := by
  induction as generalizing s with
  | nil => exact .commit s
  | cons a as ih =>
    rw [List.foldlM_cons, List.foldlM_cons]
    exact (hstep s a).bind fun t _ => ih t

end Mirrors

/-! ### Transactions that agree -/

/-- Both transactions commit, with results that `R` relates, or both roll back. -/
inductive Agrees {β' : Type u} (R : β → β' → Prop) : Except ε β → Except ε β' → Prop
  | commit {b : β} {b' : β'} (h : R b b') : Agrees R (.ok b) (.ok b')
  | rollback (e e' : ε) : Agrees R (.error e) (.error e')

namespace Agrees

variable {β' γ' : Type u} {R : β → β' → Prop} {Q : γ → γ' → Prop} {x : Except ε β}
  {y : Except ε β'}

lemma bind {f : β → Except ε γ} {f' : β' → Except ε γ'} (h : Agrees R x y)
    (hf : ∀ b b', x = .ok b → R b b' → Agrees Q (f b) (f' b')) :
    Agrees Q (x >>= f) (y >>= f') := by
  cases h with
  | commit h => exact hf _ _ rfl h
  | rollback e e' => exact .rollback e e'

/-- One step that both transactions take in the same way. -/
lemma step {f : β → Except ε γ} {f' : β → Except ε γ'}
    (hf : ∀ b, x = .ok b → Agrees Q (f b) (f' b)) : Agrees Q (x >>= f) (x >>= f') := by
  cases x with
  | ok b => exact hf b rfl
  | error e => exact .rollback e e

lemma map {f : β → γ} {f' : β' → γ'} (h : Agrees R x y) (hf : ∀ b b', R b b' → Q (f b) (f' b')) :
    Agrees Q (x.map f) (y.map f') := by
  cases h with
  | commit h => exact .commit (hf _ _ h)
  | rollback e e' => exact .rollback e e'

/-- Loops agree when each of their steps does. -/
lemma foldlM {α : Type*} {step : β → α → Except ε β} {step' : β' → α → Except ε β'}
    (hstep : ∀ s s' a, R s s' → Agrees R (step s a) (step' s' a)) (as : List α) {s : β} {s' : β'}
    (h : R s s') : Agrees R (as.foldlM step s) (as.foldlM step' s') := by
  induction as generalizing s s' with
  | nil => exact .commit h
  | cons a as ih =>
    rw [List.foldlM_cons, List.foldlM_cons]
    exact (hstep s s' a h).bind fun t t' _ ht => ih ht

end Agrees

end Transaction
