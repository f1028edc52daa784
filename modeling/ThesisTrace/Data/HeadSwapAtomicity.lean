import ThesisTrace.Data.HeadSwap

/-!
# Head publications are ordered and leave nothing half recorded

The Head and the tables are what the Head moves and the commits of a run leave of the initial
ones. Every Head move replaces the generation that its call expected, and the receipts and the
candidate change together, only in a call that moved the Head.
-/

namespace ThesisTrace.Data
open LabelledTransition

/-! ### The effects of a run -/

structure SharedState where
  head : Option DatasetHeadPointer
  tables : Tables

def SwapState.shared (s : SwapState) : SharedState := ⟨s.head, s.tables⟩

def applyEvent (d : SharedState) : SwapEvent → SharedState
  | .moved _ pointer => { d with head := some pointer }
  | .committed _ call => { d with tables := call.commitTables d.tables }
  | .otherTransaction tables => { d with tables := tables }
  | .started _ _ | .progressed _ | .raised _ => d

def replay (d : SharedState) (events : List SwapEvent) : SharedState :=
  events.foldl applyEvent d

def SwapEvent.pointerMovedBy (c : CallId) : SwapEvent → Option DatasetHeadPointer
  | .moved c' pointer => if c' = c then some pointer else none
  | _ => none

def SwapEvent.commitOf (c : CallId) : SwapEvent → Bool
  | .committed c' _ => c' = c
  | _ => false

/-- The Heads that a call published. -/
def movesOf (c : CallId) (events : List SwapEvent) : List DatasetHeadPointer :=
  events.filterMap (SwapEvent.pointerMovedBy c)

def commitsOf (c : CallId) (events : List SwapEvent) : Nat :=
  events.countP (SwapEvent.commitOf c)

/-- A Head move replaces the Head that its call expected. -/
def MoveInChain (initial : SharedState) (before : List SwapEvent) (event : SwapEvent) : Prop :=
  ∀ c pointer, event = .moved c pointer → ∃ call, .started c call ∈ before ∧
    (replay initial before).head.map DatasetHeadPointer.generationManifestSha256 =
      call.expectedGeneration ∧
    call.pointer (replay initial before).head = some pointer

/-- A commit finds its candidate live and every requested receipt unrecorded. -/
def CommitRecords (initial : SharedState) (before : List SwapEvent) (event : SwapEvent) : Prop :=
  ∀ c call, event = .committed c call → .started c call ∈ before ∧
    call.Protected (replay initial before).tables ∧
    ∀ receipt ∈ call.receipts, call.Recordable (replay initial before).tables receipt

/-- What the events say of a call in this state. -/
def CallOutcome (events : List SwapEvent) (c : CallId) : CallState → Prop
  | .unused => movesOf c events = [] ∧ commitsOf c events = 0
  | .running _ _ | .raised => (movesOf c events).length ≤ 1 ∧ commitsOf c events = 0
  | .returned pointer => movesOf c events = [pointer] ∧ commitsOf c events = 1

structure HeadSwapsAtomic (initial : SharedState) (events : List SwapEvent) (s : SwapState) :
    Prop where
  effects : s.shared = replay initial events
  chain : Each (MoveInChain initial) events
  commits : Each (CommitRecords initial) events
  outcome : ∀ c, CallOutcome events c (s.calls c)

/-! ### The invariant -/

def Phase.holdsLifecycle : Phase → Bool
  | .resolved => false
  | _ => true

def Phase.holdsHead : Phase → Bool
  | .headLocked | .compared _ | .renamed _ => true
  | _ => false

def Phase.published : Phase → List DatasetHeadPointer
  | .renamed pointer | .recording pointer _ _ | .candidateReleased pointer
  | .guardExited pointer => [pointer]
  | _ => []

/-- A locked row is as the call found it. -/
def RowReady (call : SwapCall) (tables : Tables) : Row → Prop
  | .candidate operation => ∃ candidate, tables.candidates operation = some candidate ∧
      candidate.live = true ∧
      candidate.generationManifestSha256 = call.generation.manifestSha256
  | .receipt table key => call.Recordable tables (table, key)

structure RunningInvariant (events : List SwapEvent) (s : SwapState) (c : CallId)
    (call : SwapCall) (phase : Phase) : Prop where
  started : .started c call ∈ events
  lifecycle : s.lifecycleLock = some c ↔ phase.holdsLifecycle = true
  headLock : s.headLock = some c ↔ phase.holdsHead = true
  compared : ∀ current, phase = .compared current → s.head = current ∧
    s.head.map DatasetHeadPointer.generationManifestSha256 = call.expectedGeneration
  recording : ∀ pointer done left, phase = .recording pointer done left →
    done ++ left = call.receipts
  ready : ∀ row ∈ phase.rows call, RowReady call s.tables row
  moves : movesOf c events = phase.published
  commits : commitsOf c events = 0

structure Unlocked (s : SwapState) (c : CallId) : Prop where
  lifecycle : s.lifecycleLock ≠ some c
  headLock : s.headLock ≠ some c

def CallInvariant (events : List SwapEvent) (s : SwapState) (c : CallId) : CallState → Prop
  | .running call phase => RunningInvariant events s c call phase
  | state => CallOutcome events c state ∧ Unlocked s c

structure SwapInvariant (initial : SharedState) (events : List SwapEvent) (s : SwapState) :
    Prop where
  effects : s.shared = replay initial events
  chain : Each (MoveInChain initial) events
  commits : Each (CommitRecords initial) events
  calls : ∀ c, CallInvariant events s c (s.calls c)

variable {initial : SharedState} {events : List SwapEvent} {event : SwapEvent}
  {s t : SwapState} {c : CallId} {call : SwapCall} {phase : Phase}

@[simp] lemma replay_concat : replay initial (events ++ [event])
    = applyEvent (replay initial events) event := by
  simp [replay]

@[simp] lemma movesOf_concat : movesOf c (events ++ [event])
    = movesOf c events ++ (event.pointerMovedBy c).toList := by
  cases h : event.pointerMovedBy c <;> simp [movesOf, h]

@[simp] lemma commitsOf_concat : commitsOf c (events ++ [event])
    = commitsOf c events + if event.commitOf c then 1 else 0 := by
  simp [commitsOf, List.countP_append, List.countP_singleton]

lemma RowReady.congr {tables tables' : Tables} {row : Row} (h : RowReady call tables row)
    (hsame : SameRow tables tables' row) : RowReady call tables' row := by
  cases row with
  | candidate operation =>
    have hrow : tables'.candidates operation = tables.candidates operation := hsame
    simp only [RowReady] at h ⊢
    rw [hrow]
    exact h
  | receipt table key =>
    have hrow : tables'.operations table key = tables.operations table key := hsame
    simp only [RowReady, SwapCall.Recordable] at h ⊢
    rw [hrow]
    exact h

/-- What a step of another call leaves alone. -/
structure Frame (s : SwapState) (event : SwapEvent) (t : SwapState) (c : CallId) : Prop where
  moves : event.pointerMovedBy c = none
  commits : event.commitOf c = false
  lifecycle : t.lifecycleLock = some c ↔ s.lifecycleLock = some c
  headLock : t.headLock = some c ↔ s.headLock = some c
  head : s.headLock = some c → t.head = s.head
  tables : ∀ call phase, s.calls c = .running call phase →
    ∀ row ∈ phase.rows call, SameRow s.tables t.tables row

lemma CallInvariant.frame (h : CallInvariant events s c (s.calls c))
    (hframe : Frame s event t c) :
    CallInvariant (events ++ [event]) t c (s.calls c) := by
  have hmoves : movesOf c (events ++ [event]) = movesOf c events := by
    simp [hframe.moves]
  have hcommits : commitsOf c (events ++ [event]) = commitsOf c events := by
    simp [hframe.commits]
  cases hstate : s.calls c with
  | running call phase =>
    rw [hstate] at h
    have hrunning : RunningInvariant events s c call phase := h
    exact {
      started := List.mem_append_left _ hrunning.started
      lifecycle := hframe.lifecycle.trans hrunning.lifecycle
      headLock := hframe.headLock.trans hrunning.headLock
      compared := fun current hphase => by
        have hlock : s.headLock = some c := hrunning.headLock.mpr (by rw [hphase]; rfl)
        rw [hframe.head hlock]
        exact hrunning.compared current hphase
      recording := hrunning.recording
      ready := fun row hrow =>
        (hrunning.ready row hrow).congr (hframe.tables call phase hstate row hrow)
      moves := hmoves.trans hrunning.moves
      commits := hcommits.trans hrunning.commits }
  | unused =>
    rw [hstate] at h
    simp only [CallInvariant, CallOutcome, hmoves, hcommits] at h ⊢
    exact ⟨h.1, mt hframe.lifecycle.mp h.2.lifecycle, mt hframe.headLock.mp h.2.headLock⟩
  | raised =>
    rw [hstate] at h
    simp only [CallInvariant, CallOutcome, hmoves, hcommits] at h ⊢
    exact ⟨h.1, mt hframe.lifecycle.mp h.2.lifecycle, mt hframe.headLock.mp h.2.headLock⟩
  | returned pointer =>
    rw [hstate] at h
    simp only [CallInvariant, CallOutcome, hmoves, hcommits] at h ⊢
    exact ⟨h.1, mt hframe.lifecycle.mp h.2.lifecycle, mt hframe.headLock.mp h.2.headLock⟩

/-- A step of `c`, which leaves the other calls alone. -/
lemma SwapInvariant.act {state : CallState} (h : SwapInvariant initial events s)
    (hcalls : t.calls = Function.update s.calls c state)
    (heffects : t.shared = applyEvent s.shared event)
    (hchain : MoveInChain initial events event) (hcommits : CommitRecords initial events event)
    (hframe : ∀ c', c' ≠ c → Frame s event t c')
    (hself : CallInvariant (events ++ [event]) t c state) :
    SwapInvariant initial (events ++ [event]) t where
  effects := by rw [heffects, h.effects, replay_concat]
  chain := each_snoc h.chain hchain
  commits := each_snoc h.commits hcommits
  calls c' := by
    rw [hcalls]
    by_cases hc : c' = c
    · subst hc
      rw [Function.update_self]
      exact hself
    · rw [Function.update_of_ne hc]
      exact (h.calls c').frame (hframe c' hc)

/-- A step of `c` that only changes its locks and its phase. -/
lemma SwapInvariant.progressed (h : SwapInvariant initial events s)
    (hcalls : t.calls = Function.update s.calls c (.running call phase))
    (hshared : t.shared = s.shared)
    (hlifecycle : ∀ c', c' ≠ c → (t.lifecycleLock = some c' ↔ s.lifecycleLock = some c'))
    (hheadLock : ∀ c', c' ≠ c → (t.headLock = some c' ↔ s.headLock = some c'))
    (hself : RunningInvariant (events ++ [.progressed c]) t c call phase) :
    SwapInvariant initial (events ++ [.progressed c]) t := by
  have htables : t.tables = s.tables := congrArg SharedState.tables hshared
  refine h.act hcalls hshared (fun _ _ heq => nomatch heq) (fun _ _ heq => nomatch heq)
    (fun c' hc => ?_) hself
  exact {
    moves := rfl
    commits := rfl
    lifecycle := hlifecycle c' hc
    headLock := hheadLock c' hc
    head := fun _ => congrArg SharedState.head hshared
    tables := fun _ _ _ row _ => by
      rw [htables]
      cases row <;> rfl }

/-- The call itself after such a step. -/
lemma RunningInvariant.progress {phase' : Phase} (h : RunningInvariant events s c call phase)
    (htables : t.tables = s.tables)
    (hlifecycle : t.lifecycleLock = some c ↔ phase'.holdsLifecycle = true)
    (hheadLock : t.headLock = some c ↔ phase'.holdsHead = true)
    (hcompared : ∀ current, phase' = .compared current → t.head = current ∧
      t.head.map DatasetHeadPointer.generationManifestSha256 = call.expectedGeneration)
    (hrecording : ∀ pointer done left, phase' = .recording pointer done left →
      done ++ left = call.receipts)
    (hready : ∀ row ∈ phase'.rows call, row ∈ phase.rows call ∨ RowReady call s.tables row)
    (hpublished : phase'.published = phase.published) :
    RunningInvariant (events ++ [.progressed c]) t c call phase' where
  started := List.mem_append_left _ h.started
  lifecycle := hlifecycle
  headLock := hheadLock
  compared := hcompared
  recording := hrecording
  ready row hrow := by
    rw [htables]
    exact (hready row hrow).elim (h.ready row) id
  moves := by
    rw [movesOf_concat, h.moves, hpublished]
    exact List.append_nil _
  commits := by
    rw [commitsOf_concat, h.commits]
    rfl

lemma SwapInvariant.running (h : SwapInvariant initial events s)
    (hc : s.calls c = .running call phase) : RunningInvariant events s c call phase := by
  have hinv := h.calls c
  rw [hc] at hinv
  exact hinv

/-- A step that keeps the locks and moves on to a phase that holds the same ones. -/
lemma SwapInvariant.setPhase {phase' : Phase} (h : SwapInvariant initial events s)
    (hc : s.calls c = .running call phase)
    (hlifecycle : phase'.holdsLifecycle = phase.holdsLifecycle)
    (hheadLock : phase'.holdsHead = phase.holdsHead)
    (hcompared : ∀ current, phase' = .compared current → s.head = current ∧
      s.head.map DatasetHeadPointer.generationManifestSha256 = call.expectedGeneration)
    (hrecording : ∀ pointer done left, phase' = .recording pointer done left →
      done ++ left = call.receipts)
    (hready : ∀ row ∈ phase'.rows call, row ∈ phase.rows call ∨ RowReady call s.tables row)
    (hpublished : phase'.published = phase.published) :
    SwapInvariant initial (events ++ [.progressed c]) (s.setCall c (.running call phase')) := by
  have hrunning := h.running hc
  refine h.progressed rfl rfl (fun _ _ => Iff.rfl) (fun _ _ => Iff.rfl)
    (hrunning.progress rfl ?_ ?_ hcompared hrecording hready hpublished)
  · rw [hlifecycle]
    exact hrunning.lifecycle
  · rw [hheadLock]
    exact hrunning.headLock

lemma Protected.rows {tables : Tables} (h : call.Protected tables) :
    ∀ row ∈ (call.protectedBy.map Row.candidate).toList, RowReady call tables row := by
  intro row hrow
  obtain ⟨operation, hoperation, rfl⟩ := Option.map_eq_some_iff.mp (Option.mem_toList.mp hrow)
  exact h operation hoperation

/-- Only the holder of the lifecycle lock has locked rows. -/
lemma SwapInvariant.rows_nil (h : SwapInvariant initial events s) {c' : CallId} (hc : c' ≠ c)
    (hlock : s.lifecycleLock = some c) (hstate : s.calls c' = .running call phase) :
    phase.rows call = [] := by
  have hfree : s.lifecycleLock ≠ some c' := by
    rw [hlock]
    exact fun heq => hc (Option.some.inj heq).symm
  have hphase := mt (h.running hstate).lifecycle.mpr hfree
  cases phase with
  | resolved => rfl
  | _ => exact absurd rfl hphase

lemma endCall_lifecycleLock {c' : CallId} (state : CallState) (hc : c' ≠ c) :
    (s.endCall c state).lifecycleLock = some c' ↔ s.lifecycleLock = some c' := by
  simp only [SwapState.endCall]
  split
  · next hlock => simp [hlock, hc.symm]
  · rfl

lemma endCall_headLock {c' : CallId} (state : CallState) (hc : c' ≠ c) :
    (s.endCall c state).headLock = some c' ↔ s.headLock = some c' := by
  simp only [SwapState.endCall]
  split
  · next hlock => simp [hlock, hc.symm]
  · rfl

lemma endCall_unlocked (state : CallState) : Unlocked (s.endCall c state) c where
  lifecycle := by
    simp only [SwapState.endCall]
    split
    · simp
    · assumption
  headLock := by
    simp only [SwapState.endCall]
    split
    · simp
    · assumption

lemma Phase.published_length : phase.published.length ≤ 1 := by
  cases phase <;> simp [Phase.published]

lemma swapInvariant_step (h : SwapInvariant initial events s) (hstep : SwapStep s event t) :
    SwapInvariant initial (events ++ [event]) t := by
  cases hstep with
  | @start c call hc =>
    have hinv := h.calls c
    rw [hc] at hinv
    obtain ⟨⟨hmoves, hcommits⟩, hunlocked⟩ := hinv
    refine h.act rfl rfl (fun _ _ heq => nomatch heq) (fun _ _ heq => nomatch heq)
      (fun c' hne => ⟨rfl, rfl, Iff.rfl, Iff.rfl, fun _ => rfl, fun _ _ _ row _ => ?_⟩) ?_
    · cases row <;> rfl
    · exact {
        started := List.mem_append_right _ (List.mem_singleton_self _)
        lifecycle := ⟨fun hlock => absurd hlock hunlocked.lifecycle, fun hphase => nomatch hphase⟩
        headLock := ⟨fun hlock => absurd hlock hunlocked.headLock, fun hphase => nomatch hphase⟩
        compared := fun _ hphase => nomatch hphase
        recording := fun _ _ _ hphase => nomatch hphase
        ready := fun _ hrow => absurd hrow List.not_mem_nil
        moves := by
          rw [movesOf_concat, hmoves]
          rfl
        commits := by
          rw [commitsOf_concat, hcommits]
          rfl }
  | @lockLifecycle c call hc hfree =>
    have hrunning := h.running hc
    refine h.progressed rfl rfl (fun c' hne => ?_) (fun _ _ => Iff.rfl)
      (hrunning.progress rfl ?_ hrunning.headLock (fun _ hphase => nomatch hphase)
        (fun _ _ _ hphase => nomatch hphase) (fun row hrow => .inl hrow) rfl)
    · simp [hfree, hne.symm]
    · simp [Phase.holdsLifecycle]
  | @enterGuard c call hc =>
    exact h.setPhase hc rfl rfl (fun _ hphase => nomatch hphase)
      (fun _ _ _ hphase => nomatch hphase) (fun row hrow => .inl hrow) rfl
  | @lockCandidate c call now hc hlive hlease =>
    exact h.setPhase hc rfl rfl (fun _ hphase => nomatch hphase)
      (fun _ _ _ hphase => nomatch hphase) (fun row hrow => .inr (Protected.rows hlive row hrow)) rfl
  | @lockHead c call hc hfree =>
    have hrunning := h.running hc
    refine h.progressed rfl rfl (fun _ _ => Iff.rfl) (fun c' hne => ?_)
      (hrunning.progress rfl hrunning.lifecycle ?_ (fun _ hphase => nomatch hphase)
        (fun _ _ _ hphase => nomatch hphase) (fun row hrow => .inl hrow) rfl)
    · simp [hfree, hne.symm]
    · simp [Phase.holdsHead]
  | @compare c call hc hexpected =>
    refine h.setPhase hc rfl rfl (fun current hphase => ?_)
      (fun _ _ _ hphase => nomatch hphase) (fun row hrow => .inl hrow) rfl
    cases hphase
    exact ⟨rfl, hexpected⟩
  | @rename c call current pointer hc hpointer =>
    have hrunning := h.running hc
    obtain ⟨hcurrent, hexpected⟩ := hrunning.compared current rfl
    have hlock : s.headLock = some c := hrunning.headLock.mpr rfl
    have hhead : (replay initial events).head = s.head :=
      congrArg SharedState.head h.effects.symm
    refine h.act rfl rfl (fun c' pointer' heq => ?_) (fun _ _ heq => nomatch heq)
      (fun c' hne => ?_) ?_
    · cases heq
      refine ⟨call, hrunning.started, ?_, ?_⟩
      · rw [hhead, hexpected]
      · rw [hhead, hcurrent, hpointer]
    · refine ⟨?_, rfl, Iff.rfl, Iff.rfl, fun hheld => ?_,
        fun _ _ _ row _ => ?_⟩
      · simp [SwapEvent.pointerMovedBy, hne.symm]
      · -- only the holder of the Head's lock sits between the comparison and the rename
        rw [hlock] at hheld
        exact absurd (Option.some.inj hheld).symm hne
      · cases row <;> rfl
    · exact {
        started := List.mem_append_left _ hrunning.started
        lifecycle := hrunning.lifecycle
        headLock := hrunning.headLock
        compared := fun _ hphase => nomatch hphase
        recording := fun _ _ _ hphase => nomatch hphase
        ready := hrunning.ready
        moves := by
          rw [movesOf_concat, hrunning.moves]
          simp [SwapEvent.pointerMovedBy, Phase.published]
        commits := by
          rw [commitsOf_concat, hrunning.commits]
          rfl }
  | @unlockHead c call pointer hc =>
    have hrunning := h.running hc
    have hlock : s.headLock = some c := hrunning.headLock.mpr rfl
    refine h.progressed rfl rfl (fun _ _ => Iff.rfl) (fun c' hne => ?_)
      (hrunning.progress rfl hrunning.lifecycle ?_ (fun _ hphase => nomatch hphase)
        (fun _ _ _ hphase => ?_) (fun row hrow => .inl ?_) rfl)
    · simp [hlock, hne.symm]
    · simp [Phase.holdsHead]
    · cases hphase
      rfl
    · simpa [Phase.rows] using hrow
  | @recordReceipt c call pointer done receipt left hc hrow =>
    have hrunning := h.running hc
    refine h.setPhase hc rfl rfl (fun _ hphase => nomatch hphase)
      (fun _ _ _ hphase => ?_) (fun row hmem => ?_) rfl
    · cases hphase
      rw [List.append_assoc]
      exact hrunning.recording pointer done (receipt :: left) rfl
    · simp only [Phase.rows, List.map_append, List.map_cons, List.map_nil, ← List.append_assoc,
        List.mem_append, List.mem_singleton] at hmem ⊢
      rcases hmem with hmem | rfl
      · exact .inl hmem
      · exact .inr hrow
  | @releaseCandidate c call pointer done hc =>
    have hrunning := h.running hc
    have hdone : done = call.receipts := by
      simpa using hrunning.recording pointer done [] rfl
    subst hdone
    exact h.setPhase hc rfl rfl (fun _ hphase => nomatch hphase)
      (fun _ _ _ hphase => nomatch hphase) (fun row hrow => .inl hrow) rfl
  | @exitGuard c call pointer hc =>
    exact h.setPhase hc rfl rfl (fun _ hphase => nomatch hphase)
      (fun _ _ _ hphase => nomatch hphase) (fun row hrow => .inl hrow) rfl
  | @commit c call pointer hc =>
    have hrunning := h.running hc
    have hlock : s.lifecycleLock = some c := hrunning.lifecycle.mpr rfl
    have htables : (replay initial events).tables = s.tables :=
      congrArg SharedState.tables h.effects.symm
    have hended : Unlocked (s.endCall c (.returned pointer)) c := endCall_unlocked _
    refine h.act rfl rfl (fun _ _ heq => nomatch heq) (fun c' call' heq => ?_)
      (fun c' hne => ?_) ⟨⟨?_, ?_⟩, hended.lifecycle, hended.headLock⟩
    · cases heq
      rw [htables]
      refine ⟨hrunning.started, fun operation hoperation => ?_, fun receipt hreceipt => ?_⟩
      · exact hrunning.ready (.candidate operation) (by simp [Phase.rows, hoperation])
      · refine hrunning.ready (.receipt receipt.1 receipt.2) (List.mem_append_right _ ?_)
        exact List.mem_map_of_mem (f := fun r => Row.receipt r.1 r.2) hreceipt
    · refine ⟨rfl, ?_, endCall_lifecycleLock (.returned pointer) hne,
        endCall_headLock (.returned pointer) hne, fun _ => rfl, fun call' phase' hstate row hrow => ?_⟩
      · simp [SwapEvent.commitOf, hne.symm]
      · rw [h.rows_nil hne hlock hstate] at hrow
        exact absurd hrow List.not_mem_nil
    · rw [movesOf_concat, hrunning.moves]
      rfl
    · rw [commitsOf_concat, hrunning.commits]
      simp [SwapEvent.commitOf]
  | @raise c call phase hc =>
    have hrunning := h.running hc
    refine h.act rfl rfl (fun _ _ heq => nomatch heq) (fun _ _ heq => nomatch heq)
      (fun c' hne => ?_) ⟨⟨?_, ?_⟩, endCall_unlocked _⟩
    · refine ⟨rfl, rfl, endCall_lifecycleLock _ hne, endCall_headLock _ hne, fun _ => rfl,
        fun _ _ _ row _ => ?_⟩
      cases row <;> rfl
    · rw [movesOf_concat, hrunning.moves]
      simpa [SwapEvent.pointerMovedBy] using phase.published_length
    · rw [commitsOf_concat, hrunning.commits]
      rfl
  | other tables hlocked =>
    exact {
      effects := by
        rw [replay_concat, ← h.effects]
        rfl
      chain := each_snoc h.chain fun _ _ heq => nomatch heq
      commits := each_snoc h.commits fun _ _ heq => nomatch heq
      calls := fun c => (h.calls c).frame {
        moves := rfl
        commits := rfl
        lifecycle := Iff.rfl
        headLock := Iff.rfl
        head := fun _ => rfl
        tables := hlocked c } }

lemma swapInvariant_initial (h : s.Initial) : SwapInvariant s.shared [] s where
  effects := rfl
  chain := each_nil
  commits := each_nil
  calls c := by
    rw [h.calls c]
    refine ⟨⟨rfl, rfl⟩, ?_, ?_⟩
    · rw [h.lifecycleLock]
      simp
    · rw [h.headLock]
      simp

lemma SwapInvariant.outcome (h : SwapInvariant initial events s) (c : CallId) :
    CallOutcome events c (s.calls c) := by
  have hinv := h.calls c
  cases hstate : s.calls c with
  | running call phase =>
    have hrunning := h.running hstate
    refine ⟨?_, hrunning.commits⟩
    rw [hrunning.moves]
    exact phase.published_length
  | unused => rw [hstate] at hinv; exact hinv.1
  | raised => rw [hstate] at hinv; exact hinv.1
  | returned pointer => rw [hstate] at hinv; exact hinv.1

/-- Any interleaving of Head publications is a chain of Head moves. A call that returns moved the
Head once and committed its receipts and its candidate; a call that raises commits nothing, and
its only effect may be the Head that it renamed. -/
theorem head_swaps_atomic (hinitial : s.Initial) (h : Exec SwapStep s events t) :
    HeadSwapsAtomic s.shared events t :=
  have hinv := h.invariant_trace (I := SwapInvariant s.shared)
    (fun _ _ _ _ hinv hstep => swapInvariant_step hinv hstep) (swapInvariant_initial hinitial)
  ⟨hinv.effects, hinv.chain, hinv.commits, hinv.outcome⟩

/-! ### A first publication -/

/-- Generation 1, which the candidate of operation 7 protects. -/
def firstGeneration : GenerationDescriptor := ⟨1, 1, some ⟨0, 4, 5⟩, 4, none⟩

def firstPointer : DatasetHeadPointer := ⟨1, 1, ⟨0, 4, 5⟩, 4, 11, none⟩

def firstPublication : SwapCall :=
  compareAndSwapHead none firstGeneration 7 (some 11) none (some 9) none none

/-- No Head yet, and the row of financial operation 9. -/
def beforePublication (operation : Option RefreshOperation) : SwapState where
  head := none
  tables := ⟨fun id => if id = 7 then some ⟨1, true, 100⟩ else none,
    fun table key => if table = .financial ∧ key = 9 then operation else none⟩
  lifecycleLock := none
  headLock := none
  calls _ := .unused

lemma beforePublication_initial (operation : Option RefreshOperation) :
    (beforePublication operation).Initial :=
  ⟨rfl, rfl, fun _ => rfl⟩

def publicationEvents : List SwapEvent :=
  [.started 0 firstPublication, .progressed 0, .progressed 0, .progressed 0, .progressed 0,
    .progressed 0, .moved 0 firstPointer, .progressed 0]

/-- The publication up to its first receipt. -/
lemma publication_run (operation : Option RefreshOperation) : ∃ t,
    Exec SwapStep (beforePublication operation) publicationEvents t ∧
      t.calls 0 = .running firstPublication (.recording firstPointer [] [(.financial, 9)]) ∧
      t.head = some firstPointer ∧ t.tables = (beforePublication operation).tables := by
  refine ⟨_, .cons (.start firstPublication rfl) <| .cons (.lockLifecycle rfl rfl) <|
    .cons (.enterGuard rfl) <| .cons (.lockCandidate 12 rfl ?_ ?_) <|
    .cons (.lockHead rfl rfl) <| .cons (.compare rfl rfl) <|
    .cons (.rename rfl (show _ = some firstPointer from rfl)) <| .cons (.unlockHead rfl) .nil, rfl, rfl, rfl⟩
  · intro id hid
    cases hid
    exact ⟨_, rfl, rfl, rfl⟩
  · intro id row hid hrow
    cases hid
    cases hrow
    decide

/-- The receipt conflicts after the Head moved, and the call raises with the Head moved. -/
theorem receipt_conflict_keeps_head : ∃ events t,
    Exec SwapStep (beforePublication none) events t ∧ t.calls 0 = .raised ∧
      t.head = some firstPointer ∧ (beforePublication none).head = none ∧
      t.tables = (beforePublication none).tables := by
  obtain ⟨t, hrun, hcall, hhead, htables⟩ := publication_run none
  exact ⟨_, _, .snoc hrun (.raise hcall), rfl, hhead, rfl, htables⟩

/-- The operation whose publication the call records. -/
def publishedOperation : RefreshOperation := ⟨.succeeded, some 1, none⟩

theorem head_swaps_atomic_publication : ∃ events t,
    t.calls 0 = .returned firstPointer ∧
      HeadSwapsAtomic (beforePublication publishedOperation).shared events t := by
  obtain ⟨t, hrun, hcall, -, htables⟩ := publication_run publishedOperation
  have hrow : firstPublication.Recordable t.tables (.financial, 9) := by
    rw [htables]
    exact ⟨publishedOperation, rfl, rfl, rfl, rfl⟩
  have hend := hrun.trans <| .cons (.recordReceipt hcall hrow) <|
    .cons (.releaseCandidate (Function.update_self ..)) <|
    .cons (.exitGuard (Function.update_self ..)) <|
    .cons (.commit (Function.update_self ..)) .nil
  exact ⟨_, _, rfl, head_swaps_atomic (beforePublication_initial _) hend⟩

end ThesisTrace.Data
