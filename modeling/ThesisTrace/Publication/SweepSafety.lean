import ThesisTrace.Publication.Sweep

/-!
# The orphan sweep skips nothing

The sweep deletes an object only while it holds the mutation lock and the staging lock, after it saw
that the object has no row and is old enough. Its cursor passes a key only when no old object
without a row is left there, whatever stops a step and wherever the next one resumes.
-/

namespace ThesisTrace.Publication
open LabelledTransition Transaction

variable {manifestDigest : Manifest → Sha256} {sweeper : TransactionId}

/-! ### What a collector keeps from others -/

section Publication

variable {s s' : PublicationState} {event : PublicationEvent} {t : TransactionId}
  {phase : Collecting}

/-- While a transaction collects, nobody else changes the tables or removes an object. -/
lemma frozen_of_collecting (h : PublicationInvariant manifestDigest s)
    (hphase : s.transactions t = .collecting phase)
    (hstep : PublicationStep manifestDigest s event s')
    (hown : s'.transactions t = s.transactions t) :
    s'.tables = s.tables ∧ ∀ digest, (s.store digest).isSome → (s'.store digest).isSome := by
  have hlock := (h.collecting hphase).1
  have hsame {u : TransactionId} (hu : s.mutationLock = some u) : u = t :=
    Option.some.inj (hu.symm.trans hlock)
  cases hstep with
  | putObject digest size =>
    refine ⟨rfl, ?_⟩
    intro other hother
    by_cases hdigest : other = digest
    · subst hdigest
      simp
    · have hkept : (Function.update s.store digest ((s.store digest).getD size) other).isSome := by
        rwa [Function.update_of_ne hdigest]
      exact hkept
  | commitMutation hwork =>
    have hself := hsame (h.mutating hwork).1
    subst hself
    rw [hphase] at hwork
    cases hwork
  | commitCollection hother =>
    have hself := hsame (h.collecting hother).1
    subst hself
    rw [hother] at hown
    cases (Function.update_self ..).symm.trans hown
  | deleteObject hother =>
    have hself := hsame (h.collecting hother).1
    subst hself
    rw [hother] at hown
    cases (Function.update_self ..).symm.trans hown
  | _ => exact ⟨rfl, fun _ hstored => hstored⟩

lemma frozen_of_write (hstep : PublicationStep manifestDigest s (.write t) s') :
    s'.tables = s.tables ∧ s'.store = s.store := by
  cases hstep <;> exact ⟨rfl, rfl⟩

/-- Only a put stores an object. -/
lemma stored_of_step {digest : Sha256} (hstep : PublicationStep manifestDigest s event s')
    (hevent : event ≠ .putObject digest) (hstored : (s'.store digest).isSome) :
    (s.store digest).isSome := by
  cases hstep with
  | putObject other size =>
    have hne : digest ≠ other := fun heq => hevent (heq ▸ rfl)
    dsimp only at hstored
    rwa [Function.update_of_ne hne] at hstored
  | @deleteObject t other queued hphase =>
    dsimp only at hstored
    by_cases hsame : digest = other
    · subst hsame
      rw [Function.update_self] at hstored
      cases hstored
    · rwa [Function.update_of_ne hsame] at hstored
  | _ => exact hstored

/-- Only a deletion removes an object. -/
lemma kept_of_step {digest : Sha256} (hstep : PublicationStep manifestDigest s event s')
    (hevent : event ≠ .deleteObject digest) (hstored : (s.store digest).isSome) :
    (s'.store digest).isSome := by
  cases hstep with
  | putObject other size =>
    dsimp only
    by_cases hsame : digest = other
    · subst hsame
      simp
    · rwa [Function.update_of_ne hsame]
  | @deleteObject t other queued hphase =>
    have hne : digest ≠ other := fun heq => hevent (heq ▸ rfl)
    dsimp only
    rwa [Function.update_of_ne hne]
  | _ => exact hstored

lemma absent_of_deleteObject {digest : Sha256}
    (hstep : PublicationStep manifestDigest s (.deleteObject digest) s') :
    s'.store digest = none := by
  cases hstep
  exact Function.update_self ..

end Publication

/-! ### The invariant -/

/-- What a removal knows of its object. -/
def RemovalKnown (s : SweepState) (sweeper : TransactionId) (cutoff : Time) (key : Sha256) :
    Removal → Prop
  | .locked => s.publication.transactions sweeper = .collecting .mutationLocked
  | .fenced => s.publication.transactions sweeper = .collecting .stagingLocked
  | .unrecorded => s.publication.transactions sweeper = .collecting .stagingLocked ∧
      s.publication.tables.objects key = none
  | .headed => s.publication.transactions sweeper = .collecting .stagingLocked ∧
      s.publication.tables.objects key = none ∧ (s.publication.store key).isSome ∧
      s.modified key ≤ cutoff
  | .checked => s.publication.transactions sweeper = .collecting (.deleting key false) ∧
      s.publication.tables.objects key = none ∧ (s.publication.store key).isSome ∧
      s.modified key ≤ cutoff
  | .deleted => s.publication.transactions sweeper = .collecting (.deleted key false)

/-- What the worker carries agrees with the stored row. -/
def WorkerKnown (s : SweepState) (sweeper : TransactionId) : Worker → Prop
  | .idle => True
  | .loaded state now => state = s.row ∧ now ≤ s.clock
  | .scanning _ cutoff | .listed _ cutoff _ _ => s.row.cutoff = some cutoff
  | .looping scan | .stopping scan => s.row.cutoff = some scan.cutoff
  | .removing scan phase => s.row.cutoff = some scan.cutoff ∧ ∃ key modified rest,
      scan.items = (key, modified) :: rest ∧ RemovalKnown s sweeper scan.cutoff key phase

structure SweepInvariant (manifestDigest : Manifest → Sha256) (sweeper : TransactionId)
    (s : SweepState) : Prop where
  publication : PublicationInvariant manifestDigest s.publication
  rows : RowsInvariant manifestDigest s.publication
  /-- `CHECK (cutoff IS NOT NULL OR last_key = '')` -/
  row : s.row.cutoff = none → s.row.lastKey = none
  worker : WorkerKnown s sweeper s.worker

variable {s s' : SweepState} {event : SweepEvent} {key : Sha256} {cutoff : Time}

/-- A put does not touch the time of an object that is there. -/
lemma arrival_of_stored {e : PublicationEvent} (hstored : (s.publication.store key).isSome) :
    s.arrival e key = s.modified key := by
  unfold SweepState.arrival
  cases e with
  | putObject digest =>
    dsimp only
    split
    · next habsent =>
      have hne : key ≠ digest := by
        rintro rfl
        rw [habsent] at hstored
        cases hstored
      exact Function.update_of_ne hne _ _
    · rfl
  | _ => rfl

lemma RemovalKnown.collecting {phase : Removal} (h : RemovalKnown s sweeper cutoff key phase) :
    ∃ collecting, s.publication.transactions sweeper = .collecting collecting := by
  cases phase with
  | locked | fenced | deleted => exact ⟨_, h⟩
  | unrecorded | headed | checked => exact ⟨_, h.1⟩

/-- The steps of others change nothing that a removal relies on. -/
lemma RemovalKnown.others {phase : Removal} {p : PublicationState} {e : PublicationEvent}
    (h : RemovalKnown s sweeper cutoff key phase)
    (hpublication : PublicationInvariant manifestDigest s.publication)
    (hstep : PublicationStep manifestDigest s.publication e p)
    (hown : p.transactions sweeper = s.publication.transactions sweeper) :
    RemovalKnown { s with publication := p, modified := s.arrival e } sweeper cutoff key phase := by
  obtain ⟨collecting, hphase⟩ := h.collecting
  obtain ⟨htables, hstore⟩ := frozen_of_collecting hpublication hphase hstep hown
  cases phase with
  | locked | fenced | deleted => exact hown.trans h
  | unrecorded => exact ⟨hown.trans h.1, by rw [htables]; exact h.2⟩
  | headed | checked =>
    obtain ⟨htransaction, hrow, hstored, hold⟩ := h
    refine ⟨hown.trans htransaction, by rw [htables]; exact hrow, hstore key hstored, ?_⟩
    dsimp only
    rw [arrival_of_stored hstored]
    exact hold

lemma sweepInvariant_step (h : SweepInvariant manifestDigest sweeper s)
    (hstep : SweepStep manifestDigest sweeper s event s') :
    SweepInvariant manifestDigest sweeper s' := by
  have hpublish {p : PublicationState} {e : PublicationEvent}
      (hstep : PublicationStep manifestDigest s.publication e p) :
      PublicationInvariant manifestDigest p ∧ RowsInvariant manifestDigest p :=
    ⟨publicationInvariant_step h.publication hstep, rowsInvariant_step h.publication h.rows hstep⟩
  have hworker := h.worker
  cases hstep with
  | others hstep hown =>
    obtain ⟨hpublication, hrows⟩ := hpublish hstep
    refine ⟨hpublication, hrows, h.row, ?_⟩
    cases hphase : s.worker with
    | removing scan phase =>
      rw [hphase] at hworker
      obtain ⟨hcutoff, key, modified, rest, hitems, hknown⟩ := hworker
      exact ⟨hcutoff, key, modified, rest, hitems, hknown.others h.publication hstep hown⟩
    | _ =>
      rw [hphase] at hworker
      exact hworker
  | tick now hnow =>
    refine ⟨h.publication, h.rows, h.row, ?_⟩
    cases hphase : s.worker with
    | loaded state time =>
      rw [hphase] at hworker
      exact ⟨hworker.1, hworker.2.trans hnow⟩
    | removing scan phase =>
      rw [hphase] at hworker
      obtain ⟨hcutoff, key, modified, rest, hitems, hknown⟩ := hworker
      refine ⟨hcutoff, key, modified, rest, hitems, ?_⟩
      cases phase <;> exact hknown
    | _ =>
      rw [hphase] at hworker
      exact hworker
  | load => exact ⟨h.publication, h.rows, h.row, rfl, le_refl _⟩
  | startSweep => exact ⟨h.publication, h.rows, (nomatch ·), rfl⟩
  | resume hphase hcutoff =>
    rw [hphase] at hworker
    exact ⟨h.publication, h.rows, h.row, hworker.1 ▸ hcutoff⟩
  | late | crash => exact ⟨h.publication, h.rows, h.row, trivial⟩
  | list hphase | readRecorded hphase | leave hphase | skip hphase =>
    rw [hphase] at hworker
    exact ⟨h.publication, h.rows, h.row, hworker⟩
  | beginRemoval hphase hlimit hitems hunrecorded hold hstep hbegun =>
    rw [hphase] at hworker
    obtain ⟨hpublication, hrows⟩ := hpublish hstep
    exact ⟨hpublication, hrows, h.row, hworker, _, _, _, hitems, hbegun⟩
  | fence hphase hstep hfenced =>
    rw [hphase] at hworker
    obtain ⟨hcutoff, key, modified, rest, hitems, -⟩ := hworker
    obtain ⟨hpublication, hrows⟩ := hpublish hstep
    exact ⟨hpublication, hrows, h.row, hcutoff, key, modified, rest, hitems, hfenced⟩
  | findUnrecorded hphase hitems hrow =>
    rw [hphase] at hworker
    obtain ⟨hcutoff, key, modified, rest, hsame, hknown⟩ := hworker
    cases hitems.symm.trans hsame
    exact ⟨h.publication, h.rows, h.row, hcutoff, _, _, _, hitems, hknown, hrow⟩
  | head hphase hitems hstored hold =>
    rw [hphase] at hworker
    obtain ⟨hcutoff, key, modified, rest, hsame, htransaction, hrow⟩ := hworker
    cases hitems.symm.trans hsame
    exact ⟨h.publication, h.rows, h.row, hcutoff, _, _, _, hitems, htransaction, hrow, hstored,
      hold⟩
  | check hphase hitems hstep hchecked =>
    rw [hphase] at hworker
    obtain ⟨hcutoff, key, modified, rest, hsame, -, hrow, hstored, hold⟩ := hworker
    cases hitems.symm.trans hsame
    obtain ⟨hpublication, hrows⟩ := hpublish hstep
    obtain ⟨htables, hstore⟩ := frozen_of_write hstep
    refine ⟨hpublication, hrows, h.row, hcutoff, _, _, _, hitems, hchecked, ?_, ?_, hold⟩
    · dsimp only
      rw [htables]
      exact hrow
    · dsimp only
      rw [hstore]
      exact hstored
  | deleteObject hphase hitems hstep hdeleted =>
    rw [hphase] at hworker
    obtain ⟨hpublication, hrows⟩ := hpublish hstep
    exact ⟨hpublication, hrows, h.row, hworker.1, _, _, _, hitems, hdeleted⟩
  | removed hphase hitems hstep =>
    rw [hphase] at hworker
    obtain ⟨hpublication, hrows⟩ := hpublish hstep
    refine ⟨hpublication, hrows, ?_, hworker.1⟩
    intro hnone
    cases hnone.symm.trans hworker.1
  | kept hphase hitems hkept hstep =>
    rw [hphase] at hworker
    obtain ⟨hpublication, hrows⟩ := hpublish hstep
    exact ⟨hpublication, hrows, h.row, hworker.1⟩
  | contended hphase hnot hstep =>
    rw [hphase] at hworker
    obtain ⟨hpublication, hrows⟩ := hpublish hstep
    exact ⟨hpublication, hrows, h.row, hworker.1⟩
  | @finish scan hphase =>
    have hcutoff : s.row.cutoff = some scan.cutoff := by
      rcases hphase with hphase | ⟨hphase, -⟩
      · rw [hphase] at hworker
        exact hworker
      · rw [hphase] at hworker
        exact hworker
    refine ⟨h.publication, h.rows, ?_, trivial⟩
    intro hnone
    cases hnone.symm.trans hcutoff
  | completeSweep => exact ⟨h.publication, h.rows, fun _ => rfl, trivial⟩
  | fail hlastKey houtside =>
    refine ⟨h.publication, h.rows, ?_, trivial⟩
    intro hnone
    cases hphase : s.worker with
    | idle =>
      rw [hphase] at hlastKey
      cases hlastKey
    | loaded state now =>
      rw [hphase] at hworker hlastKey
      obtain ⟨rfl, -⟩ := hworker
      cases hlastKey
      exact h.row hnone
    | removing scan phase => exact absurd hphase (houtside scan phase)
    | _ =>
      rw [hphase] at hworker
      cases hnone.symm.trans hworker
  | failRemoval hphase hstep =>
    rw [hphase] at hworker
    obtain ⟨hpublication, hrows⟩ := hpublish hstep
    refine ⟨hpublication, hrows, ?_, trivial⟩
    intro hnone
    cases hnone.symm.trans hworker.1
  | crashRemoval hphase hstep =>
    obtain ⟨hpublication, hrows⟩ := hpublish hstep
    exact ⟨hpublication, hrows, h.row, trivial⟩

lemma sweepInvariant_initial (h : s.Initial) : SweepInvariant manifestDigest sweeper s where
  publication := publicationInvariant_initial h.publication
  rows := rowsInvariant_initial h.publication
  row _ := by rw [h.row]
  worker := by
    rw [h.worker]
    trivial

lemma sweepInvariant_exec {events : List SweepEvent} (h : s.Initial)
    (hexec : Exec (SweepStep manifestDigest sweeper) s events s') :
    SweepInvariant manifestDigest sweeper s' :=
  hexec.invariant (fun _ _ _ hinv hstep => sweepInvariant_step hinv hstep)
    (sweepInvariant_initial h)

/-- The sweep deletes only objects that are not recorded and old enough. -/
lemma deleteObject_safe (h : SweepInvariant manifestDigest sweeper s)
    (hstep : SweepStep manifestDigest sweeper s (.deleteObject key) s') :
    ¬Recorded s.publication.tables key ∧
      ∃ cutoff, s.row.cutoff = some cutoff ∧ s.modified key ≤ cutoff := by
  have hworker := h.worker
  cases hstep with
  | deleteObject hphase hitems hstep hdeleted =>
    rw [hphase] at hworker
    obtain ⟨hcutoff, _, _, _, hsame, -, hrow, -, hold⟩ := hworker
    cases hitems.symm.trans hsame
    refine ⟨?_, _, hcutoff, hold⟩
    rw [← h.rows.rows key, hrow]
    exact Bool.false_ne_true

/-! ### One object over a sweep -/

/-- The object is stored, and not younger than the cutoff. -/
def Old (s : SweepState) (cutoff : Time) (key : Sha256) : Prop :=
  (s.publication.store key).isSome ∧ s.modified key ≤ cutoff

/-- The cursor has reached the key. -/
def Covers (lastKey : Option Sha256) (key : Sha256) : Prop := ∃ last ∈ lastKey, key ≤ last

/-- The key is still to come, on this page or a later one. -/
def Ahead (cutoff : Time) (key : Sha256) (items : List ListedObject) (truncated : Bool) : Prop :=
  (∃ modified ≤ cutoff, (key, modified) ∈ items) ∨
    truncated = true ∧ ∀ item ∈ items, item.1 < key

/-- The loop has not passed the object while it is old. -/
structure ScanTracks (old : Prop) (cutoff : Time) (key : Sha256) (scan : Scan) : Prop where
  sameCutoff : scan.cutoff = cutoff
  passed : Covers scan.lastKey key → ¬old
  ahead : old → Ahead cutoff key scan.items scan.truncated
  ordered : scan.items.Pairwise fun a b => a.1 < b.1
  unrecorded : key ∉ scan.recorded

def WorkerTracks (row : MaintenanceState) (old : Prop) (cutoff : Time) (key : Sha256) :
    Worker → Prop
  | .idle => True
  | .loaded state _ => state = row
  | .scanning lastKey cutoff' => cutoff' = cutoff ∧ (Covers lastKey key → ¬old)
  | .listed lastKey cutoff' items truncated => cutoff' = cutoff ∧ (Covers lastKey key → ¬old) ∧
      (old → Ahead cutoff key items truncated) ∧ items.Pairwise fun a b => a.1 < b.1
  | .looping scan => ScanTracks old cutoff key scan
  | .removing scan phase => ScanTracks old cutoff key scan ∧ (phase = .deleted →
      ∀ modified rest, scan.items = (key, modified) :: rest → ¬old)
  | .stopping scan => Covers scan.lastKey key → ¬old

/-- In a sweep with this cutoff nothing has passed the object while it is old. -/
structure Tracks (cutoff : Time) (key : Sha256) (s : SweepState) : Prop where
  clock : cutoff < s.clock
  row : s.row.cutoff = some cutoff
  stored : Covers s.row.lastKey key → ¬Old s cutoff key
  worker : WorkerTracks s.row (Old s cutoff key) cutoff key s.worker

/-- No object becomes old during the sweep. -/
lemma old_of_step (hclock : cutoff < s.clock) (hstep : SweepStep manifestDigest sweeper s event s')
    (hold : Old s' cutoff key) : Old s cutoff key := by
  obtain ⟨hstored, hmodified⟩ := hold
  cases hstep with
  | @others p e hstep hown =>
    by_cases habsent : s.publication.store key = none
    · exfalso
      have hput : e = .putObject key := by
        by_contra hne
        have hkept := stored_of_step hstep hne hstored
        rw [habsent] at hkept
        cases hkept
      subst hput
      simp only [SweepState.arrival, if_pos habsent, Function.update_self] at hmodified
      exact absurd hmodified (not_le.mpr hclock)
    · have hkept : (s.publication.store key).isSome := Option.isSome_iff_ne_none.mpr habsent
      dsimp only at hmodified
      rw [arrival_of_stored hkept] at hmodified
      exact ⟨hkept, hmodified⟩
  | beginRemoval hphase hlimit hitems hunrecorded hold hstep =>
    exact ⟨stored_of_step hstep (by simp) hstored, hmodified⟩
  | fence hphase hstep | check hphase hitems hstep | deleteObject hphase hitems hstep
  | removed hphase hitems hstep | kept hphase hitems hkept hstep | contended hphase hnot hstep
  | failRemoval hphase hstep | crashRemoval hphase hstep =>
    exact ⟨stored_of_step hstep (by simp) hstored, hmodified⟩
  | _ => exact ⟨hstored, hmodified⟩

lemma ScanTracks.mono {old old' : Prop} {scan : Scan} (h : ScanTracks old cutoff key scan)
    (himp : old' → old) : ScanTracks old' cutoff key scan :=
  ⟨h.sameCutoff, fun hcovers hold => h.passed hcovers (himp hold), fun hold => h.ahead (himp hold),
    h.ordered, h.unrecorded⟩

lemma WorkerTracks.mono {row : MaintenanceState} {old old' : Prop} {worker : Worker}
    (h : WorkerTracks row old cutoff key worker) (himp : old' → old) :
    WorkerTracks row old' cutoff key worker := by
  cases worker with
  | idle => trivial
  | loaded => exact h
  | scanning => exact ⟨h.1, fun hcovers hold => h.2 hcovers (himp hold)⟩
  | listed =>
    exact ⟨h.1, fun hcovers hold => h.2.1 hcovers (himp hold), fun hold => h.2.2.1 (himp hold),
      h.2.2.2⟩
  | looping => exact ScanTracks.mono h himp
  | removing =>
    exact ⟨h.1.mono himp, fun hphase modified rest hitems hold =>
      h.2 hphase modified rest hitems (himp hold)⟩
  | stopping => exact fun hcovers hold => h hcovers (himp hold)

/-- The loop passes the first item when the object is not old or is another one. -/
lemma ScanTracks.advance {old : Prop} {scan : Scan} {next : Sha256} {modified : Time}
    {rest : List ListedObject} (h : ScanTracks old cutoff key scan)
    (hitems : scan.items = (next, modified) :: rest) (hnext : key = next → ¬old) (deleted : ℕ) :
    ScanTracks old cutoff key (scan.advance next rest deleted) := by
  have hordered := h.ordered
  rw [hitems, List.pairwise_cons] at hordered
  obtain ⟨hlater, hrest⟩ := hordered
  have hahead (hold : old) :
      (∃ modified ≤ cutoff, (key, modified) ∈ rest) ∨
        scan.truncated = true ∧ next < key ∧ ∀ item ∈ rest, item.1 < key := by
    rcases h.ahead hold with ⟨time, hle, hmem⟩ | ⟨htruncated, hbefore⟩
    · rw [hitems] at hmem
      rcases List.mem_cons.mp hmem with heq | hmem
      · exact absurd hold (hnext (congrArg Prod.fst heq))
      · exact .inl ⟨time, hle, hmem⟩
    · rw [hitems] at hbefore
      exact .inr ⟨htruncated, hbefore _ List.mem_cons_self,
        fun item hitem => hbefore item (List.mem_cons_of_mem _ hitem)⟩
  refine ⟨h.sameCutoff, ?_, ?_, hrest, h.unrecorded⟩
  · rintro ⟨last, hlast, hle⟩ hold
    cases hlast
    rcases hahead hold with ⟨time, -, hmem⟩ | ⟨-, hlt, -⟩
    · exact absurd (hlater _ hmem) (not_lt.mpr hle)
    · exact absurd hlt (not_lt.mpr hle)
  · intro hold
    exact (hahead hold).imp_right fun hrest => ⟨hrest.1, hrest.2.2⟩

/-- A listing has the object, or stops before it. -/
lemma ListsPage.ahead {lastKey : Option Sha256} {items : List ListedObject} {truncated : Bool}
    (h : ListsPage s lastKey items truncated) (hpassed : Covers lastKey key → ¬Old s cutoff key)
    (hold : Old s cutoff key) : Ahead cutoff key items truncated := by
  have hlater : ∀ last ∈ lastKey, last < key := by
    intro last hlast
    by_contra hnot
    exact hpassed ⟨last, hlast, not_lt.mp hnot⟩ hold
  exact (h.complete key hold.1 hlater).imp_left fun hmem => ⟨_, hold.2, hmem⟩

lemma tracks_step (hinv : SweepInvariant manifestDigest sweeper s)
    (hunrecorded : ¬Recorded s.publication.tables key)
    (hstep : SweepStep manifestDigest sweeper s event s') (hevent : event ≠ .completeSweep)
    (h : Tracks cutoff key s) : Tracks cutoff key s' := by
  have himp : Old s' cutoff key → Old s cutoff key := old_of_step h.clock hstep
  have hrow : ¬(s.publication.tables.objects key).isSome = true := by
    rw [hinv.rows.rows key]
    exact hunrecorded
  have hstored : Covers s.row.lastKey key → ¬Old s' cutoff key :=
    fun hcovers hold => h.stored hcovers (himp hold)
  have hworker := h.worker.mono himp
  -- what is known of the worker, at the shape that the step finds it in
  have hat {worker : Worker} (hphase : s.worker = worker) :
      WorkerTracks s.row (Old s' cutoff key) cutoff key worker := hphase ▸ hworker
  cases hstep with
  | others hstep hown => exact ⟨h.clock, h.row, hstored, hworker⟩
  | tick now hnow => exact ⟨h.clock.trans_le hnow, h.row, hstored, hworker⟩
  | load => exact ⟨h.clock, h.row, hstored, rfl⟩
  | startSweep hphase hcutoff =>
    have hstate := hat hphase
    rw [hstate, h.row] at hcutoff
    cases hcutoff
  | resume hphase hcutoff =>
    have hstate := hat hphase
    rw [hstate, h.row] at hcutoff
    cases hcutoff
    rw [hstate]
    exact ⟨h.clock, h.row, hstored, rfl, hstored⟩
  | late | crash => exact ⟨h.clock, h.row, hstored, trivial⟩
  | list hphase hpage =>
    obtain ⟨hcutoff, hpassed⟩ := hat hphase
    exact ⟨h.clock, h.row, hstored, hcutoff, hpassed, hpage.ahead hpassed, hpage.ordered⟩
  | readRecorded hphase =>
    obtain ⟨hcutoff, hpassed, hahead, hordered⟩ := hat hphase
    refine ⟨h.clock, h.row, hstored, hcutoff, hpassed, hahead, hordered, ?_⟩
    rw [List.mem_filter]
    exact fun hmem => hrow hmem.2
  | leave hphase => exact ⟨h.clock, h.row, hstored, (hat hphase).passed⟩
  | @skip scan next modified rest hphase hlimit hitems hskip =>
    have hscan : ScanTracks (Old s cutoff key) cutoff key scan := hat hphase
    refine ⟨h.clock, h.row, hstored, hscan.advance hitems ?_ _⟩
    -- an old object of the page was neither recorded nor young when it was listed
    rintro rfl hold
    obtain ⟨time, hle, hmem⟩ | ⟨-, hbefore⟩ := hscan.ahead hold
    · have hordered := hscan.ordered
      rw [hitems] at hmem hordered
      rcases List.mem_cons.mp hmem with heq | hmem
      · cases heq
        rcases hskip with hrecorded | hyoung
        · exact hscan.unrecorded hrecorded
        · rw [hscan.sameCutoff] at hyoung
          exact absurd hle (not_le.mpr hyoung)
      · exact lt_irrefl _ ((List.pairwise_cons.mp hordered).1 (key, time) hmem)
    · rw [hitems] at hbefore
      exact lt_irrefl _ (hbefore _ List.mem_cons_self)
  | beginRemoval hphase => exact ⟨h.clock, h.row, hstored, hat hphase, nofun⟩
  | fence hphase | findUnrecorded hphase | head hphase | check hphase =>
    exact ⟨h.clock, h.row, hstored, (hat hphase).1, nofun⟩
  | deleteObject hphase hitems hstep =>
    refine ⟨h.clock, h.row, hstored, (hat hphase).1, ?_⟩
    intro _ modified rest hsame hold
    cases hitems.symm.trans hsame
    have hgone := hold.1
    dsimp only at hgone
    rw [absent_of_deleteObject hstep] at hgone
    cases hgone
  | removed hphase hitems hstep =>
    obtain ⟨hscan, hdeleted⟩ := hat hphase
    have hadvanced := hscan.advance hitems (fun heq => hdeleted rfl _ _ (heq ▸ hitems))
    exact ⟨h.clock, h.row, (hadvanced 0).passed, hadvanced _⟩
  | kept hphase hitems hkept hstep =>
    refine ⟨h.clock, h.row, hstored, (hat hphase).1.advance hitems ?_ _⟩
    rintro rfl hold
    obtain ⟨hpresent, hmodified⟩ := himp hold
    rcases hkept with ⟨-, hrecorded⟩ | ⟨-, habsent | hyoung⟩ | ⟨-, hrecorded⟩
    · exact hrow hrecorded
    · rw [habsent] at hpresent
      cases hpresent
    · rw [(hat hphase).1.sameCutoff] at hyoung
      exact absurd hmodified (not_le.mpr hyoung)
    · exact hrow hrecorded
  | contended hphase => exact ⟨h.clock, h.row, hstored, (hat hphase).1.passed⟩
  | finish hphase =>
    rcases hphase with hphase | ⟨hphase, -⟩
    · exact ⟨h.clock, h.row, hat hphase, trivial⟩
    · exact ⟨h.clock, h.row, (hat hphase).passed, trivial⟩
  | completeSweep => exact absurd rfl hevent
  | @fail lastKey hlastKey houtside =>
    have hpassed : Covers lastKey key → ¬Old s cutoff key := by
      cases hphase : s.worker with
      | idle =>
        rw [hphase] at hlastKey
        cases hlastKey
      | loaded state now =>
        have hstate := hat hphase
        rw [hphase] at hlastKey
        cases hlastKey
        rw [hstate]
        exact h.stored
      | removing scan phase => exact absurd hphase (houtside scan phase)
      | scanning =>
        rw [hphase] at hlastKey
        cases hlastKey
        exact (hat hphase).2
      | listed =>
        rw [hphase] at hlastKey
        cases hlastKey
        exact (hat hphase).2.1
      | looping =>
        rw [hphase] at hlastKey
        cases hlastKey
        exact (hat hphase).passed
      | stopping =>
        rw [hphase] at hlastKey
        cases hlastKey
        exact hat hphase
    exact ⟨h.clock, h.row, hpassed, trivial⟩
  | failRemoval hphase => exact ⟨h.clock, h.row, (hat hphase).1.passed, trivial⟩
  | crashRemoval hphase => exact ⟨h.clock, h.row, hstored, trivial⟩

/-- The event deletes the object, whoever asks for it. -/
def Deletes (event : SweepEvent) (key : Sha256) : Prop :=
  event = .deleteObject key ∨ event = .others (.deleteObject key)

lemma old_or_deleted (hstep : SweepStep manifestDigest sweeper s event s')
    (hold : Old s cutoff key) : Old s' cutoff key ∨ Deletes event key := by
  obtain ⟨hstored, hmodified⟩ := hold
  by_cases hdeletes : Deletes event key
  · exact .inr hdeletes
  left
  cases hstep with
  | @others p e hstep hown =>
    have he : e ≠ .deleteObject key := fun heq => hdeletes (.inr (heq ▸ rfl))
    refine ⟨kept_of_step hstep he hstored, ?_⟩
    dsimp only
    rw [arrival_of_stored hstored]
    exact hmodified
  | @deleteObject p scan next modified rest hphase hitems hstep =>
    have he : PublicationEvent.deleteObject next ≠ .deleteObject key := fun heq => by
      cases heq
      exact hdeletes (.inl rfl)
    exact ⟨kept_of_step hstep he hstored, hmodified⟩
  | beginRemoval hphase hlimit hitems hunrecorded hold hstep =>
    exact ⟨kept_of_step hstep (by simp) hstored, hmodified⟩
  | fence hphase hstep | check hphase hitems hstep | removed hphase hitems hstep
  | kept hphase hitems hkept hstep | contended hphase hnot hstep | failRemoval hphase hstep
  | crashRemoval hphase hstep =>
    exact ⟨kept_of_step hstep (by simp) hstored, hmodified⟩
  | _ => exact ⟨hstored, hmodified⟩

/-- A new sweep begins before the first key. -/
lemma tracks_startSweep (hinv : SweepInvariant manifestDigest sweeper s)
    (hstep : SweepStep manifestDigest sweeper s (.startSweep cutoff) s') (key : Sha256) :
    Tracks cutoff key s' := by
  have hworker := hinv.worker
  cases hstep with
  | @startSweep state now hphase hcutoff =>
    rw [hphase] at hworker
    obtain ⟨rfl, hnow⟩ := hworker
    have hpassed : Covers s.row.lastKey key →
        ¬Old { s with row := { s.row with cutoff := some (now - orphanAge) }
                      worker := .scanning s.row.lastKey (now - orphanAge) } (now - orphanAge) key := by
      rintro ⟨last, hlast, -⟩
      rw [hinv.row hcutoff] at hlast
      cases hlast
    have hclock : now - orphanAge < s.clock := by
      have hage : (0 : ℤ) < orphanAge := by decide
      have hlt : now - orphanAge < now := Int.sub_lt_self now hage
      exact hlt.trans_le hnow
    exact ⟨hclock, rfl, hpassed, rfl, hpassed⟩

/-- The steps of one sweep, through which the object stays unrecorded. -/
def SweepRun (manifestDigest : Manifest → Sha256) (sweeper : TransactionId) (key : Sha256) :
    SweepState → List SweepEvent → SweepState → Prop :=
  Exec (restrict (SweepStep manifestDigest sweeper) fun s event =>
    ¬Recorded s.publication.tables key ∧ event ≠ .completeSweep)

lemma tracks_run {events : List SweepEvent} (hinv : SweepInvariant manifestDigest sweeper s)
    (hrun : SweepRun manifestDigest sweeper key s events s') (h : Tracks cutoff key s) :
    SweepInvariant manifestDigest sweeper s' ∧ Tracks cutoff key s' := by
  apply hrun.invariant _ ⟨hinv, h⟩
  rintro s event s' ⟨hinv, htracks⟩ ⟨hstep, hunrecorded, hevent⟩
  exact ⟨sweepInvariant_step hinv hstep, tracks_step hinv hunrecorded hstep hevent htracks⟩

lemma old_or_deleted_run {events : List SweepEvent}
    (hrun : SweepRun manifestDigest sweeper key s events s') (hold : Old s cutoff key) :
    Old s' cutoff key ∨ ∃ event ∈ events, Deletes event key := by
  apply hrun.invariant_trace _ (.inl hold)
  rintro events s event s' (hold | ⟨deleting, hmem, hdeletes⟩) ⟨hstep, -⟩
  · rcases old_or_deleted hstep hold with hold | hdeletes
    · exact .inl hold
    · exact .inr ⟨event, by simp, hdeletes⟩
  · exact .inr ⟨deleting, List.mem_append_left _ hmem, hdeletes⟩

/-- A completed sweep has passed every key. -/
lemma not_old_of_completeSweep (h : Tracks cutoff key s)
    (hstep : SweepStep manifestDigest sweeper s .completeSweep s') : ¬Old s' cutoff key := by
  have hworker := h.worker
  intro hold
  have hold := old_of_step h.clock hstep hold
  cases hstep with
  | completeSweep hphase hitems hwhole =>
    rw [hphase] at hworker
    rcases hworker.ahead hold with ⟨time, -, hmem⟩ | ⟨htruncated, -⟩
    · rw [hitems] at hmem
      exact List.not_mem_nil hmem
    · rw [hwhole] at htruncated
      cases htruncated

/-- In every execution: the sweep deletes only objects that neither a manifest nor the queue
records and that are not younger than its cutoff; and when a sweep completes, every object that was
unrecorded throughout is younger than the cutoff or no longer there. One that was there and old
enough before the sweep has been deleted. -/
theorem orphan_sweep_complete {events : List SweepEvent} {initial : SweepState}
    (hinitial : initial.Initial) (hexec : Exec (SweepStep manifestDigest sweeper) initial events s) :
    (∀ key next, SweepStep manifestDigest sweeper s (.deleteObject key) next →
      ¬Recorded s.publication.tables key ∧
        ∃ cutoff, s.row.cutoff = some cutoff ∧ s.modified key ≤ cutoff) ∧
    ∀ cutoff key begun steps reached completed,
      SweepStep manifestDigest sweeper s (.startSweep cutoff) begun →
      SweepRun manifestDigest sweeper key begun steps reached →
      SweepStep manifestDigest sweeper reached .completeSweep completed →
      ¬Old completed cutoff key ∧
        (Old s cutoff key → ∃ event ∈ steps, Deletes event key) := by
  have hinv := sweepInvariant_exec hinitial hexec
  refine ⟨fun key next hstep => deleteObject_safe hinv hstep, ?_⟩
  intro cutoff key begun steps reached completed hstart hrun hcomplete
  have htracks := (tracks_run (sweepInvariant_step hinv hstart) hrun
    (tracks_startSweep hinv hstart key)).2
  have hgone := not_old_of_completeSweep htracks hcomplete
  refine ⟨hgone, ?_⟩
  intro hold
  have hbegun : Old begun cutoff key := by
    rcases old_or_deleted hstart hold with hold | hdeletes | hdeletes
    · exact hold
    · cases hdeletes
    · cases hdeletes
  rcases old_or_deleted_run hrun hbegun with hreached | hdeleted
  · rcases old_or_deleted hcomplete hreached with hcompleted | hdeletes | hdeletes
    · exact absurd hcompleted hgone
    · cases hdeletes
    · cases hdeletes
  · exact hdeleted

/-! ### A sample run -/

/-- Nothing is recorded. One object was stored long ago, and one in front of it just now. -/
def orphanStored : SweepState where
  publication := { emptyPublication with
    store := fun key => if key = 5 ∨ key = 7 then some 3 else none }
  modified key := if key = 5 then 9999 else 0
  clock := 10000
  row := ⟨none, none⟩
  worker := .idle

lemma orphanStored_initial : orphanStored.Initial :=
  ⟨⟨rfl, rfl, rfl, fun _ => rfl, fun _ => rfl⟩, rfl, rfl⟩

lemma orphanStored_keys {digest : Sha256}
    (h : (orphanStored.publication.store digest).isSome) : digest = 5 ∨ digest = 7 := by
  change (if digest = 5 ∨ digest = 7 then some 3 else none).isSome at h
  by_contra hother
  rw [if_neg hother] at h
  cases h

/-- The row is loaded for a first sweep. -/
def orphanLoaded : SweepState := { orphanStored with worker := .loaded ⟨none, none⟩ 10000 }

def orphanBegun : SweepState :=
  { orphanLoaded with
    row := ⟨none, some (10000 - orphanAge)⟩
    worker := .scanning none (10000 - orphanAge) }

/-- The first page ends with the new object. -/
lemma orphan_firstPage : ListsPage orphanBegun none [(5, 9999)] true where
  size := by decide
  ordered := List.pairwise_singleton _ _
  later _ _ _ hkey := nomatch hkey
  listed item hitem := by
    rw [List.mem_singleton.mp hitem]
    exact ⟨rfl, rfl⟩
  complete digest hstored _ := by
    rcases orphanStored_keys hstored with rfl | rfl
    · exact .inl (List.mem_singleton_self _)
    · refine .inr ⟨rfl, fun item hitem => ?_⟩
      rw [List.mem_singleton.mp hitem]
      decide
  nonempty _ := List.cons_ne_nil _ _

/-- The worker takes up the sweep behind it. -/
def orphanResumed : SweepState :=
  { orphanBegun with
    row := ⟨some 5, some (10000 - orphanAge)⟩
    worker := .scanning (some 5) (10000 - orphanAge) }

lemma orphan_secondPage : ListsPage orphanResumed (some 5) [(7, 0)] false where
  size := by decide
  ordered := List.pairwise_singleton _ _
  later item hitem key hkey := by
    rw [List.mem_singleton.mp hitem, ← Option.some.inj hkey]
    decide
  listed item hitem := by
    rw [List.mem_singleton.mp hitem]
    exact ⟨rfl, rfl⟩
  complete digest hstored hafter := by
    rcases orphanStored_keys hstored with rfl | rfl
    · exact absurd (hafter 5 rfl) (lt_irrefl 5)
    · exact .inl (List.mem_singleton_self _)
  nonempty h := nomatch h

/-! The transaction of the removal, phase by phase. -/

def orphanLocked : PublicationState :=
  { orphanStored.publication.setTransaction 0 (.collecting .mutationLocked) with
    mutationLock := some 0 }

def orphanFenced : PublicationState :=
  { orphanLocked.setTransaction 0 (.collecting .stagingLocked) with stagingLock := some 0 }

def orphanChosen : PublicationState :=
  orphanFenced.setTransaction 0 (.collecting (.deleting 7 false))

def orphanDeleted : PublicationState :=
  { orphanChosen.setTransaction 0 (.collecting (.deleted 7 false)) with
    store := Function.update orphanChosen.store 7 none }

def orphanRemoving (p : PublicationState) (phase : Removal) : SweepState :=
  { orphanResumed with
    publication := p
    worker := .removing ⟨some 5, 10000 - orphanAge, [(7, 0)], false, [], 0⟩ phase }

lemma orphan_locked : SweepStep (fun _ => 5) 0
    { orphanResumed with worker := .looping ⟨some 5, 10000 - orphanAge, [(7, 0)], false, [], 0⟩ }
    .work
    (orphanRemoving orphanLocked .locked) :=
  .beginRemoval rfl (by decide) rfl (by decide) (by decide) (.beginCollection rfl rfl) rfl

lemma orphan_fenced : SweepStep (fun _ => 5) 0 (orphanRemoving orphanLocked .locked) .work
    (orphanRemoving orphanFenced .fenced) :=
  .fence rfl (.tryStagingLock rfl rfl fun _ => rfl) rfl

lemma orphan_checked : SweepStep (fun _ => 5) 0 (orphanRemoving orphanFenced .headed) .work
    (orphanRemoving orphanChosen .checked) :=
  .check rfl rfl (.chooseOrphan rfl rfl) rfl

lemma orphan_deleted : SweepStep (fun _ => 5) 0 (orphanRemoving orphanChosen .checked)
    (.deleteObject 7) (orphanRemoving orphanDeleted .deleted) :=
  .deleteObject rfl rfl (.deleteObject rfl) rfl

lemma orphan_run : ∃ steps reached completed,
    SweepRun (fun _ => 5) 0 7 orphanBegun steps reached ∧
      SweepStep (fun _ => 5) 0 reached .completeSweep completed := by
  have hunrecorded : ¬Recorded Tables.empty 7 := by simp [Recorded, isLinked, Tables.empty]
  have hremoved : SweepStep (fun _ => 5) 0 (orphanRemoving orphanDeleted .deleted) .work _ :=
    .removed rfl rfl (.commitCollection rfl)
  exact ⟨_, _, _, .cons ⟨.list rfl orphan_firstPage, hunrecorded, by simp⟩ <|
    .cons ⟨.readRecorded rfl, hunrecorded, by simp⟩ <|
    .cons ⟨.skip rfl (by decide) rfl (.inr (by decide)), hunrecorded, by simp⟩ <|
    .cons ⟨.finish (.inr ⟨rfl, rfl, rfl⟩), hunrecorded, by simp⟩ <|
    .cons ⟨.load rfl, hunrecorded, by simp⟩ <|
    .cons ⟨.resume rfl rfl, hunrecorded, by simp⟩ <|
    .cons ⟨.list rfl orphan_secondPage, hunrecorded, by simp⟩ <|
    .cons ⟨.readRecorded rfl, hunrecorded, by simp⟩ <|
    .cons ⟨orphan_locked, hunrecorded, by simp⟩ <|
    .cons ⟨orphan_fenced, hunrecorded, by simp⟩ <|
    .cons ⟨.findUnrecorded rfl rfl rfl, hunrecorded, by simp⟩ <|
    .cons ⟨.head rfl rfl rfl (by decide), hunrecorded, by simp⟩ <|
    .cons ⟨orphan_checked, hunrecorded, by simp⟩ <|
    .cons ⟨orphan_deleted, hunrecorded, by simp⟩ <|
    .cons ⟨hremoved, hunrecorded, by simp⟩ .nil, .completeSweep rfl rfl rfl⟩

/-- The object behind the truncated page is deleted by the sweep that goes on there. -/
theorem orphan_sweep_complete_sample : ∃ steps reached completed,
    SweepRun (fun _ => 5) 0 7 orphanBegun steps reached ∧
      SweepStep (fun _ => 5) 0 reached .completeSweep completed ∧
      ∃ event ∈ steps, Deletes event 7 := by
  obtain ⟨steps, reached, completed, hrun, hcomplete⟩ := orphan_run
  have hloaded : Exec (SweepStep (fun _ => 5) 0) orphanStored [.work] orphanLoaded :=
    .single (.load rfl)
  have hstart : SweepStep (fun _ => 5) 0 orphanLoaded (.startSweep (10000 - orphanAge))
      orphanBegun := @SweepStep.startSweep _ _ orphanLoaded ⟨none, none⟩ 10000 rfl rfl
  have hold : Old orphanLoaded (10000 - orphanAge) 7 := ⟨rfl, by decide⟩
  have hsweep := (orphan_sweep_complete orphanStored_initial hloaded).2 _ 7 orphanBegun steps
    reached completed hstart hrun hcomplete
  exact ⟨steps, reached, completed, hrun, hcomplete, hsweep.2 hold⟩

end ThesisTrace.Publication
