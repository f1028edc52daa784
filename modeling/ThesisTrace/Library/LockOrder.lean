import Mathlib.Logic.Relation
import Mathlib.Logic.Function.Basic
import Mathlib.Order.Lattice

/-!
# Lock orders

Transactions hold locks of several modes until they end and wait for at most one more. A
protocol ranks the locks. Locks of one rank may be taken in any order under a common lock that
covers them, and a guarded lock is taken only by those who hold its guard exclusively. When
every request follows the protocol, no transactions wait for each other in a cycle.
-/

namespace LockOrder
open Relation

variable {T L M ρ : Type*} [LinearOrder ρ]

structure Protocol (L M ρ : Type*) where
  Conflicts : M → M → Prop
  conflicts_symm : ∀ m m', Conflicts m m' → Conflicts m' m
  exclusive : M
  conflicts_exclusive : Conflicts exclusive exclusive
  rank : L → ρ
  /-- Whoever takes the lock already holds its guard exclusively. -/
  guard : L → Option L
  /-- Whoever takes two locks of one rank holds their common cover exclusively. -/
  cover : L → Option L

/-- The locks that each transaction holds, the latest one first. -/
abbrev Table (T L M : Type*) := T → List (L × M)

variable (P : Protocol L M ρ)

/-- No other transaction holds the lock in a conflicting mode. -/
def Grantable (table : Table T L M) (t : T) (l : L) (m : M) : Prop :=
  ∀ u, u ≠ t → ∀ m', (l, m') ∈ table u → ¬P.Conflicts m m'

/-- What `t` requests is held by `u` in a conflicting mode. -/
def WaitsFor (table : Table T L M) (request : T → Option (L × M)) (t u : T) : Prop :=
  ∃ l m m', request t = some (l, m) ∧ u ≠ t ∧ (l, m') ∈ table u ∧ P.Conflicts m m'

/-- The lock `l` ranks above `k`, or the holder covers both. -/
def Above (held : List (L × M)) (l k : L) : Prop :=
  P.rank k < P.rank l ∨
    P.rank k = P.rank l ∧ ∃ c, P.cover k = some c ∧ P.cover l = some c ∧ (c, P.exclusive) ∈ held

/-- A request of a transaction that holds `held`: it repeats a lock, or it holds the guard of
the lock, or the lock is above everything unguarded that it holds. -/
def Follows (held : List (L × M)) (l : L) (m : M) : Prop :=
  (l, m) ∈ held ∨
    match P.guard l with
    | some g => (g, P.exclusive) ∈ held
    | none => ∀ h ∈ held, P.guard h.1 = none → Above P held l h.1

/-- The locks were taken in the order of the ranks, guarded locks aside. -/
def Increasing (held : List (L × M)) : Prop :=
  held.Pairwise fun later earlier =>
    P.guard later.1 = none → P.guard earlier.1 = none → P.rank earlier.1 ≤ P.rank later.1

structure Orderly (table : Table T L M) : Prop where
  compatible : ∀ t u, t ≠ u → ∀ l m m', (l, m) ∈ table t → (l, m') ∈ table u → ¬P.Conflicts m m'
  guarded : ∀ t l m, (l, m) ∈ table t → ∀ g, P.guard l = some g → (g, P.exclusive) ∈ table t
  increasing : ∀ t, Increasing P (table t)

variable {P} {table : Table T L M} {request : T → Option (L × M)} {t u : T} {l : L} {m : M}

lemma Above.rank_le {held : List (L × M)} {k : L} (h : Above P held l k) :
    P.rank k ≤ P.rank l := by
  rcases h with hlt | ⟨heq, -⟩
  · exact hlt.le
  · exact heq.le

lemma orderly_empty : Orderly P fun _ : T => [] where
  compatible _ _ _ _ _ _ h := absurd h List.not_mem_nil
  guarded _ _ _ h := absurd h List.not_mem_nil
  increasing _ := .nil

/-- A transaction ends and gives back its locks. -/
lemma Orderly.release [DecidableEq T] (h : Orderly P table) (t : T) :
    Orderly P (Function.update table t []) where
  compatible u v huv l m m' hu hv := by
    rcases eq_or_ne u t with rfl | hut
    · simp at hu
    rcases eq_or_ne v t with rfl | hvt
    · simp at hv
    rw [Function.update_of_ne hut] at hu
    rw [Function.update_of_ne hvt] at hv
    exact h.compatible u v huv l m m' hu hv
  guarded u l m hu g hg := by
    rcases eq_or_ne u t with rfl | hut
    · simp at hu
    rw [Function.update_of_ne hut] at hu ⊢
    exact h.guarded u l m hu g hg
  increasing u := by
    rcases eq_or_ne u t with rfl | hut
    · rw [Function.update_self]
      exact .nil
    · rw [Function.update_of_ne hut]
      exact h.increasing u

/-- A granted lock that is new to its transaction. -/
lemma Orderly.grant [DecidableEq T] (h : Orderly P table) (hfree : Grantable P table t l m)
    (hfollows : Follows P (table t) l m) (hnew : (l, m) ∉ table t) :
    Orderly P (Function.update table t ((l, m) :: table t)) where
  compatible u v huv k n n' hu hv hconflict := by
    rcases eq_or_ne u t with rfl | hut
    · rw [Function.update_self, List.mem_cons] at hu
      rw [Function.update_of_ne huv.symm] at hv
      rcases hu with heq | hu
      · cases heq
        exact hfree v huv.symm n' hv hconflict
      · exact h.compatible u v huv k n n' hu hv hconflict
    · rw [Function.update_of_ne hut] at hu
      rcases eq_or_ne v t with rfl | hvt
      · rw [Function.update_self, List.mem_cons] at hv
        rcases hv with heq | hv
        · cases heq
          exact hfree u hut n hu (P.conflicts_symm _ _ hconflict)
        · exact h.compatible u v huv k n n' hu hv hconflict
      · rw [Function.update_of_ne hvt] at hv
        exact h.compatible u v huv k n n' hu hv hconflict
  guarded u k n hu g hg := by
    rcases eq_or_ne u t with rfl | hut
    · rw [Function.update_self, List.mem_cons] at hu ⊢
      rcases hu with heq | hu
      · cases heq
        rcases hfollows with hheld | hguard
        · exact absurd hheld hnew
        · rw [hg] at hguard
          exact .inr hguard
      · exact .inr (h.guarded u k n hu g hg)
    · rw [Function.update_of_ne hut] at hu ⊢
      exact h.guarded u k n hu g hg
  increasing u := by
    rcases eq_or_ne u t with rfl | hut
    · rw [Function.update_self]
      refine List.pairwise_cons.mpr ⟨fun earlier hearlier hl hguard => ?_, h.increasing u⟩
      rcases hfollows with hheld | habove
      · exact absurd hheld hnew
      · rw [hl] at habove
        exact (habove earlier hearlier hguard).rank_le
    · rw [Function.update_of_ne hut]
      exact h.increasing u

section Waiting

variable (h : Orderly P table)
  (hfollows : ∀ t l m, request t = some (l, m) → Follows P (table t) l m)
include h hfollows

/-- A transaction that waits asked for an unguarded lock above everything that it holds. -/
lemma above_of_waits (hwaits : WaitsFor P table request t u) (hrequest : request t = some (l, m)) :
    P.guard l = none ∧ ∀ k ∈ table t, P.guard k.1 = none → Above P (table t) l k.1 := by
  obtain ⟨l', m', n, hrequest', hut, hheld, hconflict⟩ := hwaits
  rw [hrequest] at hrequest'
  cases hrequest'
  rcases hfollows t l m hrequest with hrepeat | habove
  · exact absurd hconflict (h.compatible t u hut.symm l m n hrepeat hheld)
  · cases hguard : P.guard l with
    | none =>
      rw [hguard] at habove
      exact ⟨rfl, habove⟩
    | some g =>
      -- both transactions would hold the guard exclusively
      rw [hguard] at habove
      have hother := h.guarded u l n hheld g hguard
      exact absurd P.conflicts_exclusive (h.compatible t u hut.symm g _ _ habove hother)

/-- If `t` waits for `u` and `u` waits as well, then `u` asked for a lock above the one that `t`
asked for. -/
lemma above_of_waits_waits {v : T} {k : L} {n : M} (htu : WaitsFor P table request t u)
    (huv : WaitsFor P table request u v) (ht : request t = some (l, m))
    (hu : request u = some (k, n)) : Above P (table u) k l := by
  have hunguarded := (above_of_waits h hfollows htu ht).1
  obtain ⟨l', m', n', ht', -, hheld, -⟩ := htu
  rw [ht] at ht'
  cases ht'
  exact (above_of_waits h hfollows huv hu).2 _ hheld hunguarded

/-- Along a chain of waiting transactions the ranks of the requests do not decrease. -/
lemma rank_le_of_chain (hchain : TransGen (WaitsFor P table request) t u) {v : T}
    (hlast : WaitsFor P table request u v) {k : L} {n : M} (ht : request t = some (l, m))
    (hu : request u = some (k, n)) : P.rank l ≤ P.rank k := by
  induction hchain generalizing v k n with
  | single hwaits => exact (above_of_waits_waits h hfollows hwaits hlast ht hu).rank_le
  | tail _ hwaits ih =>
    have hmiddle := hwaits
    obtain ⟨l', m', _, hrequest, -⟩ := hmiddle
    exact le_trans (ih hwaits hrequest)
      (above_of_waits_waits h hfollows hwaits hlast hrequest hu).rank_le

/-- Two waits in a row raise the rank, since a cover has one holder. -/
lemma rank_lt_of_two_waits {v w : T} {k j : L} {n i : M} (htu : WaitsFor P table request t u)
    (huv : WaitsFor P table request u v) (hvw : WaitsFor P table request v w)
    (ht : request t = some (l, m)) (hu : request u = some (k, n)) (hv : request v = some (j, i)) :
    P.rank l < P.rank j := by
  rcases above_of_waits_waits h hfollows htu huv ht hu with hlt | ⟨heq, c, -, hck, hcu⟩
  · exact lt_of_lt_of_le hlt (above_of_waits_waits h hfollows huv hvw hu hv).rank_le
  rcases above_of_waits_waits h hfollows huv hvw hu hv with hlt | ⟨-, c', hck', -, hcv⟩
  · exact lt_of_eq_of_lt heq hlt
  · -- both `u` and `v` would hold the cover of what `u` asked for
    rw [hck] at hck'
    cases hck'
    obtain ⟨-, -, -, -, hvu, -⟩ := huv
    exact absurd P.conflicts_exclusive (h.compatible u v hvu.symm c _ _ hcu hcv)

/-- Transactions whose requests follow the protocol never wait for each other in a cycle. -/
theorem no_wait_cycle (t : T) : ¬TransGen (WaitsFor P table request) t t := by
  intro hcycle
  obtain ⟨u, htu, hut⟩ := TransGen.head'_iff.mp hcycle
  have hcycleu : TransGen (WaitsFor P table request) u u := TransGen.tail' hut htu
  obtain ⟨v, huv, hvu⟩ := TransGen.head'_iff.mp hcycleu
  have hcyclev : TransGen (WaitsFor P table request) v v := TransGen.tail' hvu huv
  obtain ⟨w, hvw, -⟩ := TransGen.head'_iff.mp hcyclev
  have hvt : TransGen (WaitsFor P table request) v t :=
    TransGen.trans_right hvu (TransGen.trans_left hcycleu hut)
  have hwaits := And.intro htu (And.intro huv hvw)
  obtain ⟨⟨l, m, _, ht, -⟩, ⟨k, n, _, hu, -⟩, j, i, _, hv, -⟩ := hwaits
  have hlt : P.rank l < P.rank j := rank_lt_of_two_waits h hfollows htu huv hvw ht hu hv
  have hle : P.rank j ≤ P.rank l := rank_le_of_chain h hfollows hvt htu hv ht
  exact absurd hlt (not_lt_of_ge hle)

end Waiting

end LockOrder
